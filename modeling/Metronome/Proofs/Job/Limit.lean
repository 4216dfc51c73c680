import Metronome.Proofs.Job.Calls

/-!
# Limits on the runs of a job

A job that may run so many times is called that often at most, whichever threads run it and however
its runs come out. The last call knows that it is the last one, and the job is closed when it ends.
Whoever lowers the budget meanwhile can only take away from this.

## Main definitions

* `Budget.AtMost` — no more than so many runs are left
* `Budget.answer` — the answer to a claim, by the number of those before it
* `CallEvent.claims` — the answers to the claims that were made

## Main results

* `Calls.Run.atMost` — what is left goes down by one with every call, and never up
* `Calls.Run.claims_eq`, `Calls.Run.counted` — the claims and the calls of a job with a limit, in
  order
* `Calls.Run.limited` — both, with the end of the last run
-/

namespace Metronome

namespace Budget

variable {b : Budget} {m n : Nat}

/-- No more than so many runs are left. -/
def AtMost (b : Budget) (n : Nat) : Prop := ∃ m, b.remaining = some m ∧ m ≤ n

theorem AtMost.mono (h : b.AtMost m) (hle : m ≤ n) : b.AtMost n := by
  obtain ⟨k, hk, hkm⟩ := h
  exact ⟨k, hk, Nat.le_trans hkm hle⟩

theorem atMost_zero_iff : b.AtMost 0 ↔ b.remaining = some 0 := by
  simp [AtMost]

theorem atMost_cap (b : Budget) (limit : Nat) : (b.cap limit).AtMost limit := by
  unfold cap
  split
  · exact ⟨_, rfl, Nat.min_le_left _ _⟩
  · exact ⟨_, rfl, Nat.le_trans (Nat.min_le_right _ _) (Nat.min_le_left _ _)⟩

/-- A budget is only ever lowered to a limit. -/
theorem AtMost.cap (h : b.AtMost n) (limit : Nat) : (b.cap limit).AtMost n := by
  obtain ⟨m, hm, hle⟩ := h
  unfold Budget.cap
  rw [hm]
  exact ⟨_, rfl, Nat.le_trans (Nat.min_le_left _ _) hle⟩

theorem claim_of_some (h : b.remaining = some (n + 1)) :
    b.claim = (.granted (n == 0), ⟨some n⟩) := by
  rw [claim, h]

theorem claim_of_spent (h : b.remaining = some 0) : b.claim = (.exhausted, b) := by
  rw [claim, h]

theorem claim_of_none (h : b.remaining = none) : b.claim = (.granted false, b) := by
  rw [claim, h]

/-- The answer to a claim that comes after `k` others, if so many runs are allowed. -/
def answer (n k : Nat) : RunClaim := if k < n then .granted (k + 1 == n) else .exhausted

/-- A claim takes a unit if one is left, and says whether it was the last one. -/
theorem claim_eq_answer {k : Nat} (h : b.remaining = some (n - k)) :
    b.claim = (answer n k, ⟨some (n - (k + 1))⟩) := by
  rw [answer]
  by_cases hleft : k < n
  · obtain ⟨m, rfl⟩ : ∃ m, n = k + (m + 1) := ⟨n - k - 1, by omega⟩
    rw [Nat.add_sub_cancel_left] at h
    rw [claim_of_some h, if_pos hleft]
    have hlast : (m == 0) = (k + 1 == k + (m + 1)) := by
      rw [Bool.eq_iff_iff, beq_iff_eq, beq_iff_eq]
      omega
    rw [hlast, show k + (m + 1) - (k + 1) = m by omega]
  · have hspent : b.remaining = some 0 := by rw [h, Nat.sub_eq_zero_of_le (Nat.not_lt.mp hleft)]
    rw [claim_of_spent hspent, if_neg hleft, Nat.sub_eq_zero_of_le (by omega), ← hspent]

end Budget

/-- What a run knows that may go ahead. -/
def RunClaim.last? : RunClaim → Option Bool
  | .granted last => some last
  | .exhausted => none

/-- Of the claims of a job with a limit, the first ones are granted. -/
theorem RunClaim.filterMap_answer (n k : Nat) :
    ((List.range k).map (Budget.answer n)).filterMap last? =
      (List.range (min k n)).map fun i => i + 1 == n := by
  induction k with
  | zero => simp
  | succ k ih =>
    rw [List.range_succ, List.map_append, List.filterMap_append, ih]
    by_cases hleft : k < n
    · rw [Nat.min_eq_left (Nat.le_of_lt hleft), Nat.min_eq_left hleft, List.range_succ,
        List.map_append]
      simp [Budget.answer, hleft, last?]
    · rw [Nat.min_eq_right (Nat.not_lt.mp hleft), Nat.min_eq_right (by omega)]
      simp [Budget.answer, hleft, last?]

namespace CallEvent

variable {e : CallEvent} {es fs : List CallEvent} {b : Budget} {n : Nat}

/-- The answer that a run has got when it asked for a unit of the budget. -/
def claim? : CallEvent → Option RunClaim
  | .claimed claim => some claim
  | _ => none

/-- The answers to the claims that were made, in order. -/
def claims (es : List CallEvent) : List RunClaim := es.filterMap claim?

theorem grants_of_not_claim (h : ∀ claim, e ≠ .claimed claim) : grants [e] = [] := by
  cases e with
  | claimed claim => exact absurd rfl (h claim)
  | _ => rfl

theorem claims_append (es fs : List CallEvent) : claims (es ++ fs) = claims es ++ claims fs :=
  List.filterMap_append

theorem claims_of_not_claim (h : ∀ claim, e ≠ .claimed claim) : claims [e] = [] := by
  cases e with
  | claimed claim => exact absurd rfl (h claim)
  | _ => rfl

/-- The calls are the claims that were granted. -/
theorem grants_eq (es : List CallEvent) : grants es = (claims es).filterMap RunClaim.last? := by
  rw [claims, List.filterMap_filterMap]
  refine congrArg (List.filterMap · es) (funext fun e => ?_)
  cases e with
  | claimed claim => cases claim <;> rfl
  | _ => rfl

/-- A call takes one unit of what is left, and nothing gives one. -/
theorem atMost_budget (hclaim : ∀ claim, e = .claimed claim → claim = b.claim.1)
    (hsets : e.sets = false) (h : b.AtMost n) :
    (grants [e]).length ≤ n ∧ (e.budget b).AtMost (n - (grants [e]).length) := by
  obtain ⟨claim, rfl⟩ | ⟨limit, rfl⟩ | ⟨-, hnone, hkeep⟩ := cases_of_not_sets hsets
  · obtain rfl := hclaim claim rfl
    obtain ⟨m, hm, hle⟩ := h
    cases m with
    | zero =>
      rw [budget, Budget.claim_of_spent hm]
      exact ⟨Nat.zero_le _, 0, hm, Nat.zero_le _⟩
    | succ m =>
      rw [budget, Budget.claim_of_some hm]
      exact ⟨Nat.le_trans (Nat.succ_le_succ (Nat.zero_le m)) hle, m, rfl, Nat.le_sub_one_of_lt hle⟩
  · exact ⟨Nat.zero_le _, h.cap limit⟩
  · rw [hnone, hkeep]
    exact ⟨Nat.zero_le _, h⟩

end CallEvent

namespace Calls

variable {c d : Calls} {e : CallEvent} {es fs : List CallEvent} {n : Nat}

open CallEvent

/-- What is left goes down by one with every call, and never up. -/
theorem Run.atMost (h : Run c es d) (hsets : ∀ e ∈ es, e.sets = false)
    (hc : c.job.state.budget.AtMost n) :
    (grants es).length ≤ n ∧ d.job.state.budget.AtMost (n - (grants es).length) := by
  induction h with
  | refl => exact ⟨Nat.zero_le _, hc⟩
  | @snoc c' d es e hrun hstep ih =>
    have htells := hstep.tells
    obtain ⟨hle, hatMost⟩ := ih fun e he => hsets e (List.mem_append_left _ he)
    obtain ⟨hle', hatMost'⟩ :=
      atMost_budget htells.claim (hsets e (by simp)) hatMost
    rw [grants_append, List.length_append, htells.budget, Nat.sub_add_eq]
    exact ⟨by omega, hatMost'⟩

/-- What is left when the budget has just been lowered. -/
theorem Run.atMost_of_capped {limit : Nat} (h : Run c es d)
    (hlast : es.getLast? = some (.capped limit)) : d.job.state.budget.AtMost limit := by
  cases h with
  | refl => cases hlast
  | snoc _ hstep =>
    rw [List.getLast?_concat, Option.some.injEq] at hlast
    rw [hstep.tells.budget, hlast]
    exact Budget.atMost_cap _ limit

theorem Run.runs (h : Run c es d) :
    d.job.state.runs = c.job.state.runs + (grants es).length := by
  induction h with
  | refl => rfl
  | snoc _ hstep ih =>
    rw [grants_append, List.length_append, hstep.tells.runs, ih, Nat.add_assoc]

/-- With a limit, the claims are granted until it is reached, and refused from then on. -/
theorem Run.claims_eq (h : Run c es d) (hsets : ∀ e ∈ es, e.sets = false)
    (hcaps : ∀ limit, .capped limit ∉ es) (hc : c.job.state.budget.remaining = some n) :
    d.job.state.budget.remaining = some (n - (claims es).length) ∧
      claims es = (List.range (claims es).length).map (Budget.answer n) := by
  induction h with
  | refl => exact ⟨hc, rfl⟩
  | @snoc c' d es e hrun hstep ih =>
    have htells := hstep.tells
    obtain ⟨hleft, hclaims⟩ := ih (fun e he => hsets e (List.mem_append_left _ he))
      fun limit hmem => hcaps limit (List.mem_append_left _ hmem)
    rw [claims_append, htells.budget]
    obtain ⟨claim, rfl⟩ | ⟨limit, rfl⟩ | ⟨hnone, -, hkeep⟩ := cases_of_not_sets (hsets e (by simp))
    · obtain rfl := htells.claim claim rfl
      have hclaim := Budget.claim_eq_answer hleft
      have hone : claims [.claimed c'.job.state.budget.claim.1] =
          [Budget.answer n (claims es).length] := by
        rw [hclaim]
        rfl
      rw [hone, List.length_append, List.length_singleton, List.range_succ, List.map_append,
        ← hclaims, budget, hclaim]
      exact ⟨rfl, rfl⟩
    · exact absurd (by simp) (hcaps limit)
    · rw [claims_of_not_claim hnone, List.append_nil, hkeep]
      exact ⟨hleft, hclaims⟩

/-- With a limit, all calls but the one that reaches it have runs left after them. -/
theorem Run.counted (h : Run c es d) (hsets : ∀ e ∈ es, e.sets = false)
    (hcaps : ∀ limit, .capped limit ∉ es) (hc : c.job.state.budget.remaining = some n) :
    (grants es).length ≤ n ∧ d.job.state.budget.remaining = some (n - (grants es).length) ∧
      grants es = (List.range (grants es).length).map fun k => k + 1 == n := by
  obtain ⟨hleft, hclaims⟩ := Run.claims_eq h hsets hcaps hc
  have hgrants : grants es = (List.range (min (claims es).length n)).map fun k => k + 1 == n :=
    (grants_eq es).trans ((congrArg _ hclaims).trans (RunClaim.filterMap_answer n _))
  have hlength : (grants es).length = min (claims es).length n := by
    rw [hgrants, List.length_map, List.length_range]
  rw [hlength, hleft]
  refine ⟨Nat.min_le_right _ _, ?_, hgrants⟩
  rw [Option.some.injEq]
  omega

/-- The run that spends the budget is in progress until it closes the job. -/
theorem Run.closed_or_lasting (h : Run c es d) (hspent : .claimed (.granted true) ∈ es) :
    d.job.isClosed = true ∨ d.Lasting := by
  induction h with
  | refl => exact absurd hspent List.not_mem_nil
  | snoc _ hstep ih =>
    have htells := hstep.tells
    rw [htells.closed, Bool.or_eq_true]
    obtain hmem | he := List.mem_append.mp hspent
    · obtain hclosed | hlasting := ih hmem
      · exact Or.inl (Or.inl hclosed)
      · exact (htells.lasts hlasting).symm.imp_left Or.inr
    · exact Or.inr (htells.spent (List.mem_singleton.mp he).symm)

theorem Run.closed (h : Run c es d) (hc : c.job.isClosed = true) : d.job.isClosed = true :=
  h.preserves (P := fun c => c.job.isClosed = true)
    (fun hstep hc => by rw [hstep.tells.closed, hc, Bool.true_or]) hc

/-- The end of the last run closes the job, however the run comes out. -/
theorem Run.closed_of_ended {outcome : Outcome} (h : Run c es d)
    (hended : .ended true outcome ∈ es) : d.job.isClosed = true := by
  induction h with
  | refl => exact absurd hended List.not_mem_nil
  | snoc _ hstep ih =>
    rw [hstep.tells.closed]
    obtain hmem | he := List.mem_append.mp hended
    · rw [ih hmem, Bool.true_or]
    · rw [← List.mem_singleton.mp he, closes, Bool.or_true, Bool.or_true]

/-- No call comes after the one that spends the budget. -/
theorem Run.count_last (h : Run c es d) (hsets : ∀ e ∈ es, e.sets = false) :
    (grants es).count true = 0 ∨
      (grants es).count true = 1 ∧ d.job.state.budget.remaining = some 0 := by
  induction h with
  | refl => exact Or.inl rfl
  | @snoc c' d es e hrun hstep ih =>
    have htells := hstep.tells
    have hset := hsets e (by simp)
    rw [grants_append, List.count_append]
    obtain hzero | ⟨hone, hspent⟩ := ih fun e he => hsets e (List.mem_append_left _ he)
    · rw [hzero, Nat.zero_add, htells.budget]
      by_cases hlast : e = .claimed (.granted true)
      · right
        rw [hlast, budget]
        refine ⟨rfl, ?_⟩
        have hclaim : c'.job.state.budget.claim.1 = .granted true := (htells.claim _ hlast).symm
        unfold Budget.claim at hclaim ⊢
        split at hclaim
        · cases hclaim
        · cases hclaim
        · next m hm =>
          obtain rfl : m = 0 := by simpa using hclaim
          rfl
      · left
        cases e with
        | claimed claim =>
          cases claim with
          | granted last =>
            cases last with
            | true => exact absurd rfl hlast
            | false => rfl
          | exhausted => rfl
        | _ => rfl
    · obtain ⟨hnone, hzero⟩ := atMost_budget htells.claim hset (Budget.atMost_zero_iff.mpr hspent)
      rw [List.eq_nil_of_length_eq_zero (Nat.le_zero.mp hnone)] at hzero ⊢
      rw [htells.budget]
      exact Or.inr ⟨hone, Budget.atMost_zero_iff.mp hzero⟩

/-- Whoever runs a job with a limit, and however its runs come out: it is called so often at most,
the call that reaches the limit is the only one that knows to be the last, and what is left is what
the calls have not taken. Once the last run has ended, the job is closed, and until then that run is
in progress. What is left never grows, whatever lowers it: after it was lowered to some number,
there are no more calls than that. -/
theorem Run.limited {o : JobOptions} {a : Anchor} {j : Job} (hj : Job.create o a = .ok j)
    (h : Run { job := j } es c) (h' : Run c fs d) (hsets : ∀ e ∈ es ++ fs, e.sets = false) :
    (∀ times, o.times = some times → 1 ≤ times → (∀ limit, .capped limit ∉ es) →
      (grants es).length ≤ min times Budget.maxRuns ∧
        c.job.state.budget.remaining =
          some (min times Budget.maxRuns - (grants es).length) ∧
        grants es =
          (List.range (grants es).length).map fun k => k + 1 == min times Budget.maxRuns) ∧
    c.job.state.runs = (grants es).length ∧
    (grants es).count true ≤ 1 ∧
    (.claimed (.granted true) ∈ es → c.job.isClosed = true ∨ c.Lasting) ∧
    (∀ outcome, .ended true outcome ∈ es → c.job.isClosed = true) ∧
    (∀ n, c.job.state.budget.AtMost n → d.job.state.budget.AtMost n) ∧
    (∀ limit, es.getLast? = some (.capped limit) → (grants fs).length ≤ limit) ∧
    (c.job.state.budget.remaining = some 0 →
      grants fs = [] ∧ d.job.state.budget.remaining = some 0) := by
  have hbefore := fun e he => hsets e (List.mem_append_left fs he)
  have hafter := fun e he => hsets e (List.mem_append_right es he)
  refine ⟨fun times htimes _ hcaps => ?_, ?_, ?_, Run.closed_or_lasting h,
    fun _ => Run.closed_of_ended h, fun n hn => ?_, fun limit hlimit => ?_, fun hspent => ?_⟩
  · refine (Run.counted h hbefore hcaps (n := min times Budget.maxRuns) ?_)
    rw [Job.state_create hj, htimes]
    rfl
  · have hruns := Run.runs h
    rwa [Job.state_create hj, show (JobState.new _ _ _).runs = 0 from rfl, Nat.zero_add] at hruns
  · have hcount := Run.count_last h hbefore
    omega
  · exact (Run.atMost h' hafter hn).2.mono (Nat.sub_le _ _)
  · exact (Run.atMost h' hafter (Run.atMost_of_capped h hlimit)).1
  · obtain ⟨hnone, hzero⟩ := Run.atMost h' hafter (Budget.atMost_zero_iff.mpr hspent)
    exact ⟨List.eq_nil_of_length_eq_zero (Nat.le_zero.mp hnone), Budget.atMost_zero_iff.mp
      (hzero.mono (Nat.sub_le _ _))⟩

/-- A job that may run twice. -/
def twice : JobOptions :=
  { spec := .every (.ofMillis 100), callback := some fun _ => {}, times := some 2 }

/-- Two threads run a job that may run twice, and the later call ends first. -/
theorem limited_twice : ∃ j c, Job.create twice ⟨0, default, .ofMillis 100, 1⟩ = .ok j ∧
    Run { job := j } [.claimed (.granted false), .claimed (.granted true), .ended true .proceed,
      .ended false .proceed] c ∧
    c.job.isClosed = true ∧ c.job.state.budget.remaining = some 0 ∧ c.job.state.runs = 2 := by
  obtain ⟨j, c, hj, hrun⟩ : ∃ j c, Job.create twice ⟨0, default, .ofMillis 100, 1⟩ = .ok j ∧
      Run { job := j } [.claimed (.granted false), .claimed (.granted true), .ended true .proceed,
        .ended false .proceed] c := by
    obtain ⟨j, hj⟩ : ∃ j, Job.create twice ⟨0, default, .ofMillis 100, 1⟩ = .ok j := ⟨_, rfl⟩
    have hrun := (((Course.single (Step.begin { job := j } default)).snoc
      (Step.begin _ default)).snoc (Step.move _ [_] _ [] default rfl)).snoc
      (Step.move _ [] _ [_] default rfl)
    cases hj
    exact ⟨_, _, rfl, hrun⟩
  obtain ⟨hlimit, hruns, -, -, hended, -⟩ := Run.limited hj hrun (.refl c) (by decide)
  refine ⟨j, c, hj, hrun, hended .proceed (by simp), ?_, hruns⟩
  exact (hlimit 2 rfl (by decide) (by simp)).2.1

end Calls

end Metronome
