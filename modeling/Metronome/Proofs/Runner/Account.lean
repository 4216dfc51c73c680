import Mathlib.Data.List.Count
import Metronome.Proofs.Runner.Shift

/-!
# The account of a job

A runner treats each of its jobs by itself: what a step does to one job depends on that job alone.
The account of a job gathers what this needs, from the counters of the job, from the line and from
the threads, and its moves are what the steps do to it. What holds of every job in every
interleaving is therefore found on a single account.

The counters have 32 bits and wrap around, so that there are two kinds of facts.

1. Some hold however far a job has counted: those about its places, those about a singleton, which
   never counts further than one, and the equations between counters, which hold modulo 2³².
2. The others hold as long as the triggers that were accepted and not completed can be counted with
   32 bits. Then no counter has wrapped around, and the equations hold as they stand.

## Main definitions

* `Account` — what the runner keeps about a job
* `Account.Move`, `Account.Moves` — what becomes of it in a step, and in the course of time
* `Account.Sound` — the relation between counters, line and threads
* `Account.Waits` — an accepted trigger is there that has not come to the pool
* `Account.Ample` — no counter has wrapped around
* `Event.Within` — the triggers of a job can be counted at all times

## Main results

* `Account.Moves.sound` — every move keeps an account sound
* `Account.Moves.flying` — what the pool has admitted is in the pool or completed
* `Account.Moves.balance` — what was accepted is pending, under way or completed, modulo 2³²
* `Account.Moves.ample` — no counter wraps around while the triggers can be counted
* `Account.Moves.triggers_eq` — what was accepted is then pending, under way or completed
-/

namespace Metronome

/-! ### Counters -/

namespace Counter

variable {x : Int32} {n : Nat}

theorem pos_iff : 0 < x ↔ 0 < x.toInt := Int32.lt_iff_toInt_lt

theorem nonneg_iff : 0 ≤ x ↔ 0 ≤ x.toInt := Int32.le_iff_toInt_le

theorem ofNat_one : Int32.ofNat 1 = 1 := rfl

theorem toInt_ofNat (h : n ≤ 2147483647) : (Int32.ofNat n).toInt = n :=
  Int32.toInt_ofNat_of_lt (Nat.lt_succ_of_le h)

/-- A counter can be counted up as long as there is room. -/
theorem toInt_add_ofNat (h : x.toInt + n ≤ 2147483647) : (x + .ofNat n).toInt = x.toInt + n := by
  have hlow := x.le_toInt
  rw [Int32.toInt_add, Int32.toInt_ofNat', Int.add_bmod_bmod, Int32.size]
  exact Int.bmod_eq_of_le (by omega) (by omega)

/-- It can be counted down as far as it goes. -/
theorem toInt_sub_ofNat (h : -2147483648 ≤ x.toInt - n) : (x - .ofNat n).toInt = x.toInt - n := by
  have hhigh := x.toInt_lt
  rw [Int32.toInt_sub, Int32.toInt_ofNat', Int.sub_bmod_bmod, Int32.size]
  exact Int.bmod_eq_of_le (by omega) (by omega)

theorem toInt_add_one (h : x.toInt < 2147483647) : (x + 1).toInt = x.toInt + 1 :=
  toInt_add_ofNat (n := 1) (Int.add_one_le_of_lt h)

theorem toInt_sub_one (h : -2147483648 < x.toInt) : (x - 1).toInt = x.toInt - 1 :=
  toInt_sub_ofNat (n := 1) (Int.le_sub_one_of_lt h)

end Counter

/-- The job that an event is about. -/
def Event.job? : Event → Option JobId
  | .answered id _ | .taken id | .dropped id | .admitted id | .refused id | .begun id
  | .completed id => some id
  | .cleared | .quiet => none

/-- What is about another job is none of the events of this one. -/
theorem Event.count_eq_zero {id : JobId} {e f : Event} (h : e.job? ≠ some id)
    (hf : f.job? = some id) : [e].count f = 0 :=
  List.count_eq_zero.mpr fun hmem => h (List.mem_singleton.mp hmem ▸ hf)

/-- At no time have more triggers of a job been accepted and not completed than a counter of 32 bits
can tell. -/
def Event.Within (id : JobId) (es : List Event) : Prop :=
  ∀ fs, fs <+: es → fs.count (.answered id .queued) ≤ fs.count (.completed id) + 2147483647

/-- So it is at any rate if hardly anything has happened. -/
theorem Event.within_of_length {id : JobId} {es : List Event} (h : es.length ≤ 2147483647) :
    Within id es := fun fs hfs => by
  have hcount : fs.count (.answered id .queued) ≤ fs.length := List.count_le_length
  have hlength := hfs.length_le
  omega

/-- They can be counted from a moment on if none has been completed before. -/
theorem Event.within_of_append {id : JobId} {es fs : List Event} (h : Within id (es ++ fs))
    (hnone : .completed id ∉ es) : Within id fs := fun gs hgs => by
  have hcount := h (es ++ gs) ((List.prefix_append_right_inj es).mpr hgs)
  rw [List.count_append, List.count_append, List.count_eq_zero.mpr hnone] at hcount
  omega

/-- What concerns the runner about one job. -/
structure Account where
  singleton : Bool
  closed : Bool
  pending : Int32
  running : Int32
  /-- The job stands in line. -/
  queued : Bool
  /-- The job has left the line and is not in the pool. -/
  held : Bool
  /-- Its runs in the pool that are not completed. -/
  flying : Nat

namespace Account

/-- What becomes of the account of a job when an event is seen. -/
inductive Move (id : JobId) : Account → Event → Account → Prop
  | other {a e} (h : e.job? ≠ some id) : Move id a e a
  | close {a} : Move id a .quiet { a with closed := true }
  | clear {a} (queued : a.queued = true) :
      Move id a .cleared { a with pending := 0, queued := false }
  | turnAway {a} : Move id a (.answered id .refused) a
  | coalesce {a} (single : a.singleton = true) (pending : 0 < a.pending) :
      Move id a (.answered id .coalesced) a
  /-- A trigger of a singleton in flight is held back. -/
  | hold {a} (single : a.singleton = true) (pending : ¬ 0 < a.pending) (busy : a.running ≠ 0) :
      Move id a (.answered id .queued) { a with pending := a.pending + 1 }
  | join {a} (free : a.singleton = true → ¬ 0 < a.pending ∧ a.running = 0) :
      Move id a (.answered id .queued) { a with pending := a.pending + 1, queued := true }
  | drop {a} (queued : a.queued = true) (closed : a.closed = true) :
      Move id a (.dropped id) { a with pending := 0, queued := false }
  | take {a} (queued : a.queued = true) (opened : a.closed = false) (free : a.held = false) :
      Move id a (.taken id)
        { a with
          pending := a.pending - 1
          running := a.running + 1
          queued := !a.singleton && decide (0 < a.pending - 1)
          held := true }
  | grant {a} (held : a.held = true) :
      Move id a (.admitted id) { a with held := false, flying := a.flying + 1 }
  /-- A refused run of a closed job is given up. -/
  | giveUp {a} (held : a.held = true) (closed : a.closed = true) :
      Move id a (.refused id)
        { a with pending := 0, running := a.running - 1, held := false }
  /-- A refused run turns into a trigger again, unless a singleton has got another one. -/
  | giveBack {a} (held : a.held = true) (opened : a.closed = false) :
      Move id a (.refused id)
        { a with
          pending := if a.singleton = true ∧ a.pending ≠ 0 then a.pending else a.pending + 1
          running := a.running - 1
          queued := true
          held := false }
  | begin {a} : Move id a (.begun id) a
  | finishClosed {a} (flying : 0 < a.flying) (closed : a.closed = true) :
      Move id a (.completed id)
        { a with pending := 0, running := a.running - 1, flying := a.flying - 1 }
  /-- With the end of a run, the trigger that a singleton has held back goes into line. -/
  | finish {a} (flying : 0 < a.flying) (opened : a.closed = false) :
      Move id a (.completed id)
        { a with
          running := a.running - 1
          queued := a.queued || a.singleton && decide (0 < a.pending)
          flying := a.flying - 1 }

/-- The runs that have left the line and are not completed. -/
def underWay (a : Account) : Nat := a.flying + a.held.toNat

/-- What holds of the counters of a job, its place in line and its runs, however far it has
counted. -/
structure Sound (a : Account) : Prop where
  running_eq : a.running = .ofNat a.underWay
  /-- No trigger is stranded. -/
  placed : 0 < a.pending → a.queued = true ∨ a.singleton = true ∧ a.underWay = 1
  single_pending : a.singleton = true → a.pending = 0 ∨ a.pending = 1
  single_underWay : a.singleton = true → a.underWay ≤ 1
  single_queued : a.singleton = true → a.queued = true → a.underWay = 0
  single_asked : a.singleton = true → a.queued = true → a.closed = false → a.pending = 1

/-- The account of a job that has not been triggered. -/
def untouched (singleton closed : Bool) : Account where
  singleton := singleton
  closed := closed
  pending := 0
  running := 0
  queued := false
  held := false
  flying := 0

theorem sound_untouched (singleton closed : Bool) : (untouched singleton closed).Sound := by
  constructor <;> simp [untouched, underWay]

variable {id : JobId} {a b : Account} {e : Event}

theorem Sound.running_eq_zero_iff (h : a.Sound) (single : a.singleton = true) :
    a.running = 0 ↔ a.underWay = 0 := by
  rw [h.running_eq]
  obtain hnone | hone := Nat.le_one_iff_eq_zero_or_eq_one.mp (h.single_underWay single)
  · rw [hnone]
    decide
  · rw [hone]
    decide

theorem Sound.running_eq_one (h : a.Sound) (hone : a.underWay = 1) : a.running = 1 := by
  rw [h.running_eq, hone]
  rfl

theorem Sound.pending_eq_zero (h : a.Sound) (single : a.singleton = true)
    (hnone : ¬ 0 < a.pending) : a.pending = 0 :=
  (h.single_pending single).resolve_right fun hone => hnone (hone ▸ by decide)

theorem Sound.pending_eq_one (h : a.Sound) (single : a.singleton = true) (hpos : 0 < a.pending) :
    a.pending = 1 :=
  (h.single_pending single).resolve_left (Int32.ne_of_lt hpos).symm

/-- A run of a singleton that the dispatch thread has in hand is the only one. -/
theorem Sound.flying_of_held (h : a.Sound) (single : a.singleton = true) (held : a.held = true) :
    a.flying = 0 := by
  have hone := h.single_underWay single
  rw [underWay, held, Bool.toNat_true] at hone
  omega

/-- When the run of a singleton is over, nothing of it is under way. -/
theorem Sound.landed (h : a.Sound) (single : a.singleton = true) (flying : 0 < a.flying) :
    a.flying - 1 + a.held.toNat = 0 := by
  have hone := h.single_underWay single
  rw [underWay] at hone
  omega

/-! ### Moves -/

theorem Move.closed (h : Move id a e b) (closed : a.closed = true) : b.closed = true := by
  cases h <;> first | exact closed | rfl

/-- Whoever stands in line stays there until its turn comes, or until the line is dropped. -/
theorem Move.queued (h : Move id a e b) (hqueued : a.queued = true) (htaken : e ≠ .taken id)
    (hdropped : e ≠ .dropped id) (hcleared : e ≠ .cleared) : b.queued = true := by
  cases h <;> simp_all

theorem Move.singleton_eq (h : Move id a e b) : b.singleton = a.singleton := by
  cases h <;> rfl

/-- What the pool has admitted is in the pool or completed. -/
theorem Move.flying (h : Move id a e b) :
    b.flying + [e].count (.completed id) = a.flying + [e].count (.admitted id) := by
  cases h with
  | other h => grind [Event.job?]
  | finishClosed flying | finish flying => grind
  | _ => simp

/-- What was taken from the line is under way until it is completed or taken back. -/
theorem Move.underWay_eq (h : Move id a e b) :
    b.underWay + [e].count (.completed id) + [e].count (.refused id) =
      a.underWay + [e].count (.taken id) := by
  cases h with
  | other h => grind [Event.job?]
  | _ => grind [underWay]

theorem Move.running_eq (h : Move id a e b) :
    b.running + .ofNat ([e].count (.completed id)) + .ofNat ([e].count (.refused id)) =
      a.running + .ofNat ([e].count (.taken id)) := by
  cases h with
  | other h =>
    rw [Event.count_eq_zero h rfl, Event.count_eq_zero h rfl, Event.count_eq_zero h rfl]
    exact Int32.add_zero _
  | _ => simp

/-- Every move keeps an account sound. -/
theorem Move.sound (h : Move id a e b) (ha : a.Sound) : b.Sound := by
  have hrunning : b.running = .ofNat b.underWay := by
    have hcount := congrArg Int32.ofNat h.underWay_eq
    simp only [Int32.ofNat_add] at hcount
    have hmoved := h.running_eq
    have hbefore := ha.running_eq
    grind
  cases h with
  | other | turnAway | coalesce | begin => exact ha
  | close => exact { ha with single_asked := by simp }
  | clear | drop =>
    exact { ha with
      placed := by simp
      single_pending := by simp
      single_queued := by simp
      single_asked := by simp }
  | hold single pending busy =>
    -- a singleton that runs does so once, so that the completion of this run finds the trigger
    have hbusy : a.underWay ≠ 0 := (ha.running_eq_zero_iff single).not.mp busy
    have hone : a.underWay = 1 :=
      Nat.le_antisymm (ha.single_underWay single) (Nat.pos_of_ne_zero hbusy)
    have hmore : a.pending + 1 = 1 := by
      rw [ha.pending_eq_zero single pending]
      decide
    exact { ha with
      running_eq := hrunning
      placed := fun _ => Or.inr ⟨single, hone⟩
      single_pending := fun _ => Or.inr hmore
      single_asked := fun _ queued => absurd (ha.single_queued single queued) hbusy }
  | join free =>
    have hmore (single : a.singleton = true) : a.pending + 1 = 1 := by
      rw [ha.pending_eq_zero single (free single).1]
      decide
    exact
      { running_eq := hrunning
        placed := fun _ => Or.inl rfl
        single_pending := fun single => Or.inr (hmore single)
        single_underWay := ha.single_underWay
        single_queued := fun single _ => (ha.running_eq_zero_iff single).mp (free single).2
        single_asked := fun single _ _ => hmore single }
  | take queued opened free =>
    -- nothing of a singleton in line is in flight, so this run is its only one
    have hnone (single : a.singleton = true) : a.flying = 0 :=
      Nat.eq_zero_of_add_eq_zero_right (ha.single_queued single queued)
    have hless (single : a.singleton = true) : a.pending - 1 = 0 := by
      rw [ha.single_asked single queued opened]
      decide
    have hout (single : a.singleton = true) :
        ¬ (!a.singleton && decide (0 < a.pending - 1)) = true := by
      rw [single]
      exact Bool.false_ne_true
    constructor
    case running_eq => exact hrunning
    case placed =>
      intro hpos
      refine Or.inl ?_
      cases single : a.singleton with
      | true =>
        rw [hless single] at hpos
        exact absurd hpos Int32.lt_irrefl
      | false => exact decide_eq_true hpos
    case single_pending => exact fun single => Or.inl (hless single)
    case single_underWay => exact fun single => Nat.le_of_eq (congrArg (· + 1) (hnone single))
    case single_queued => exact fun single hin => absurd hin (hout single)
    case single_asked => exact fun single hin => absurd hin (hout single)
  | grant held =>
    have hsame : underWay { a with held := false, flying := a.flying + 1 } = a.underWay := by
      rw [underWay, underWay, held]
      rfl
    exact { ha with
      running_eq := hrunning
      placed := by rw [hsame]; exact ha.placed
      single_underWay := by rw [hsame]; exact ha.single_underWay
      single_queued := by rw [hsame]; exact ha.single_queued }
  | giveUp held closed =>
    have hnone (single : a.singleton = true) : a.flying = 0 := ha.flying_of_held single held
    exact
      { running_eq := hrunning
        placed := fun hpos => absurd hpos Int32.lt_irrefl
        single_pending := fun _ => Or.inl rfl
        single_underWay := fun single => Nat.le_succ_of_le (Nat.le_of_eq (hnone single))
        single_queued := fun single _ => hnone single
        single_asked := fun _ _ opened => absurd closed (Bool.eq_false_iff.mp opened) }
  | giveBack held opened =>
    have hnone (single : a.singleton = true) : a.flying = 0 := ha.flying_of_held single held
    have hback (single : a.singleton = true) :
        (if a.singleton = true ∧ a.pending ≠ 0 then a.pending else a.pending + 1) = 1 := by
      obtain hpending | hpending := ha.single_pending single
      · rw [if_neg fun hother => hother.2 hpending, hpending]
        decide
      · rw [if_pos ⟨single, hpending ▸ by decide⟩, hpending]
    exact
      { running_eq := hrunning
        placed := fun _ => Or.inl rfl
        single_pending := fun single => Or.inr (hback single)
        single_underWay := fun single => Nat.le_succ_of_le (Nat.le_of_eq (hnone single))
        single_queued := fun single _ => hnone single
        single_asked := fun single _ _ => hback single }
  | finishClosed flying closed =>
    exact
      { running_eq := hrunning
        placed := fun hpos => absurd hpos Int32.lt_irrefl
        single_pending := fun _ => Or.inl rfl
        single_underWay := fun single => Nat.le_succ_of_le (Nat.le_of_eq (ha.landed single flying))
        single_queued := fun single _ => ha.landed single flying
        single_asked := fun _ _ opened => absurd closed (Bool.eq_false_iff.mp opened) }
  | finish flying opened =>
    have hback (hpos : 0 < a.pending) :
        (a.queued || a.singleton && decide (0 < a.pending)) = true := by
      obtain hqueued | ⟨single, -⟩ := ha.placed hpos
      · rw [hqueued, Bool.true_or]
      · rw [single, decide_eq_true hpos, Bool.and_true, Bool.or_true]
    exact
      { running_eq := hrunning
        placed := fun hpos => Or.inl (hback hpos)
        single_pending := ha.single_pending
        single_underWay := fun single => Nat.le_succ_of_le (Nat.le_of_eq (ha.landed single flying))
        single_queued := fun single _ => ha.landed single flying
        single_asked := fun single hin _ => by
          obtain hqueued | hheld := (Bool.or_eq_true _ _).mp hin
          · exact ha.single_asked single hqueued opened
          · exact ha.pending_eq_one single
              (of_decide_eq_true (Bool.and_eq_true_iff.mp hheld).2) }

/-- Modulo 2³², what is pending or running was accepted and is not completed. -/
theorem Move.balance (h : Move id a e b) (opened : b.closed = false) (kept : e ≠ .cleared)
    (undone : a.singleton = true → e ≠ .refused id) :
    b.pending + b.running + .ofNat ([e].count (.completed id)) =
      a.pending + a.running + .ofNat ([e].count (.answered id .queued)) := by
  cases h with
  | other h => rw [Event.count_eq_zero h rfl, Event.count_eq_zero h rfl]
  | clear => exact absurd rfl kept
  | giveUp _ closed | finishClosed _ closed | drop _ closed =>
    exact absurd closed (by rw [opened]; decide)
  | giveBack held =>
    have haccepted : [Event.refused id].count (.answered id .queued) = 0 := by simp
    have hcompleted : [Event.refused id].count (.completed id) = 0 := by simp
    dsimp only
    rw [if_neg fun hother => undone hother.1 rfl, haccepted, hcompleted]
    grind
  | _ => simp <;> grind

/-! ### Accepted triggers -/

/-- A trigger that was accepted has not come to the pool: the job stands in line or is in hand, or
the trigger is held back. -/
def Waits (a : Account) : Prop :=
  a.queued = true ∨ a.held = true ∨ a.singleton = true ∧ 0 < a.pending

/-- A trigger that was accepted stays with an open job until the pool admits it. -/
theorem Move.waits (h : Move id a e b) (opened : b.closed = false) (kept : e ≠ .cleared)
    (unadmitted : e ≠ .admitted id) (hwaits : a.Waits) : b.Waits := by
  unfold Waits at hwaits ⊢
  cases h with
  | _ => grind

theorem Move.waits_of_accepted {answer : Submission} (h : Move id a e b) (ha : a.Sound)
    (he : e = .answered id answer) (accepted : answer ≠ .refused) : b.Waits := by
  unfold Waits
  cases h with
  | other h => exact absurd (by rw [he]; rfl) h
  | hold single => grind [Sound]
  | _ => grind

/-! ### Counters that have not wrapped around -/

/-- No counter has wrapped around: what is pending or under way are at most so many triggers, and an
open job in line has one of them. -/
structure Ample (a : Account) (n : Int) : Prop where
  pending_nonneg : 0 ≤ a.pending.toInt
  asked : a.queued = true → a.closed = false → 1 ≤ a.pending.toInt
  le : a.pending.toInt + a.underWay ≤ n

variable {m n : Int}

theorem ample_untouched (singleton closed : Bool) : (untouched singleton closed).Ample 0 :=
  ⟨Int.le_refl 0, nofun, Int.le_refl 0⟩

theorem Ample.mono (h : a.Ample m) (hle : m ≤ n) : a.Ample n :=
  { h with le := Int.le_trans h.le hle }

/-- A singleton does not count further than one. -/
theorem Sound.ample (h : a.Sound) (single : a.singleton = true) : a.Ample 2 := by
  have hunderWay := h.single_underWay single
  have hasked := h.single_asked single
  obtain hpending | hpending := h.single_pending single
  · rw [hpending] at hasked
    refine ⟨by rw [hpending]; decide, fun queued opened => ?_, ?_⟩
    · exact absurd (hasked queued opened) (by decide)
    · rw [hpending, Int32.toInt_zero]
      omega
  · have hone : a.pending.toInt = 1 := by rw [hpending, Int32.toInt_one]
    exact ⟨by omega, fun _ _ => by omega, by omega⟩

theorem Ample.running_eq (h : a.Ample 2147483647) (ha : a.Sound) :
    a.running.toInt = a.underWay := by
  have hpending := h.pending_nonneg
  have hle := h.le
  rw [ha.running_eq, Counter.toInt_ofNat (by omega)]

/-- Whoever comes into line does so with a trigger. -/
theorem Move.asked (h : Move id a e b) (hn : a.Ample n)
    (hroom : n + [e].count (.answered id .queued) ≤ 2147483647) (queued : b.queued = true)
    (opened : b.closed = false) : 1 ≤ b.pending.toInt := by
  have hpending := hn.pending_nonneg
  have hle := hn.le
  rw [underWay] at hle
  cases h with
  | other | turnAway | coalesce | begin | grant => exact hn.asked queued opened
  | hold | join =>
    rw [List.count_singleton_self] at hroom
    rw [Counter.toInt_add_one (by omega)]
    omega
  | take => exact Counter.pos_iff.mp (of_decide_eq_true (Bool.and_eq_true_iff.mp queued).2)
  | giveBack held =>
    rw [held, Bool.toNat_true] at hle
    dsimp only
    split
    · next hother =>
      have hne : a.pending.toInt ≠ 0 := fun hzero => hother.2 (Int32.toInt_inj.mp hzero)
      omega
    · rw [Counter.toInt_add_one (by omega)]
      omega
  | finish flying opened' =>
    obtain hqueued | hback := (Bool.or_eq_true _ _).mp queued
    · exact hn.asked hqueued opened'
    · exact Counter.pos_iff.mp (of_decide_eq_true (Bool.and_eq_true_iff.mp hback).2)
  | clear | drop => cases queued
  | close => cases opened
  | giveUp _ closed | finishClosed _ closed => exact absurd closed (Bool.eq_false_iff.mp opened)

/-- A trigger is pending from when it is accepted, or taken back, until it leaves the line. -/
theorem Move.toInt_pending (h : Move id a e b) (hn : a.Ample n)
    (hroom : n + [e].count (.answered id .queued) ≤ 2147483647) :
    0 ≤ b.pending.toInt ∧
    b.pending.toInt + [e].count (.taken id) ≤
      a.pending.toInt + [e].count (.answered id .queued) + [e].count (.refused id) ∧
    (b.closed = false → e ≠ .cleared → (a.singleton = true → e ≠ .refused id) →
      b.pending.toInt + [e].count (.taken id) =
        a.pending.toInt + [e].count (.answered id .queued) + [e].count (.refused id)) := by
  have hpending := hn.pending_nonneg
  have hle := hn.le
  rw [underWay] at hle
  cases h with
  | other h =>
    rw [Event.count_eq_zero h rfl, Event.count_eq_zero h rfl, Event.count_eq_zero h rfl]
    exact ⟨hpending, by omega, fun _ _ _ => (Int.add_zero _).symm⟩
  | hold | join =>
    rw [List.count_singleton_self] at hroom
    have hmore := Counter.toInt_add_one (x := a.pending) (by omega)
    have htaken : [Event.answered id .queued].count (.taken id) = 0 := by simp
    have hrefused : [Event.answered id .queued].count (.refused id) = 0 := by simp
    rw [htaken, hrefused, List.count_singleton_self]
    refine ⟨?_, ?_, fun _ _ _ => ?_⟩ <;> (dsimp only; omega)
  | take queued opened =>
    have hone := hn.asked queued opened
    have hless := Counter.toInt_sub_one (x := a.pending) (by omega)
    have haccepted : [Event.taken id].count (.answered id .queued) = 0 := by simp
    have hrefused : [Event.taken id].count (.refused id) = 0 := by simp
    rw [haccepted, hrefused, List.count_singleton_self]
    refine ⟨?_, ?_, fun _ _ _ => ?_⟩ <;> (dsimp only; omega)
  | giveBack held =>
    rw [held, Bool.toNat_true] at hle
    have hmore := Counter.toInt_add_one (x := a.pending) (by omega)
    have haccepted : [Event.refused id].count (.answered id .queued) = 0 := by simp
    have htaken : [Event.refused id].count (.taken id) = 0 := by simp
    rw [haccepted, htaken, List.count_singleton_self]
    dsimp only
    split
    · next hother => exact ⟨hpending, by omega, fun _ _ undone => absurd rfl (undone hother.1)⟩
    · exact ⟨by omega, by omega, fun _ _ _ => by omega⟩
  | giveUp _ closed =>
    have htaken : [Event.refused id].count (.taken id) = 0 := by simp
    refine ⟨Int.le_refl 0, ?_, fun opened => absurd closed (Bool.eq_false_iff.mp opened)⟩
    rw [htaken, List.count_singleton_self, Int32.toInt_zero]
    omega
  | clear => exact ⟨Int.le_refl 0, by simpa using hpending, fun _ kept => absurd rfl kept⟩
  | drop _ closed | finishClosed _ closed =>
    exact ⟨Int.le_refl 0, by simpa using hpending,
      fun opened => absurd closed (Bool.eq_false_iff.mp opened)⟩
  | close | turnAway | coalesce | grant | begin | finish => simp [hpending]

/-- As long as the triggers can be counted, no counter wraps around. -/
theorem Move.ample (h : Move id a e b) (hn : a.Ample n)
    (hroom : n + [e].count (.answered id .queued) ≤ 2147483647) :
    b.Ample (n + [e].count (.answered id .queued) - [e].count (.completed id)) := by
  obtain ⟨hnonneg, hpending, -⟩ := h.toInt_pending hn hroom
  have hunderWay := h.underWay_eq
  have hle := hn.le
  exact ⟨hnonneg, h.asked hn hroom, by omega⟩

/-- What is pending or under way was accepted and is not completed. -/
theorem Move.triggers_eq (h : Move id a e b) (hn : a.Ample n)
    (hroom : n + [e].count (.answered id .queued) ≤ 2147483647)
    (opened : b.closed = false) (kept : e ≠ .cleared)
    (undone : a.singleton = true → e ≠ .refused id) :
    b.pending.toInt + b.underWay + [e].count (.completed id) =
      a.pending.toInt + a.underWay + [e].count (.answered id .queued) := by
  have hpending := (h.toInt_pending hn hroom).2.2 opened kept undone
  have hunderWay := h.underWay_eq
  omega

/-- Nothing comes to the pool that was not accepted. -/
theorem Move.unadmitted_le (h : Move id a e b) (hn : a.Ample n)
    (hroom : n + [e].count (.answered id .queued) ≤ 2147483647) :
    b.pending.toInt + b.held.toNat + [e].count (.admitted id) ≤
      a.pending.toInt + a.held.toNat + [e].count (.answered id .queued) := by
  have hpending := (h.toInt_pending hn hroom).2.1
  have hunderWay := h.underWay_eq
  have hflying := h.flying
  rw [underWay, underWay] at hunderWay
  omega

/-! ### Courses of moves -/

/-- Whatever becomes of a job, in order. -/
abbrev Moves (id : JobId) : Account → List Event → Account → Prop := Course (Move id)

variable {es : List Event}

theorem Moves.sound (h : Moves id a es b) (ha : a.Sound) : b.Sound :=
  h.preserves (fun hmove => hmove.sound) ha

theorem Moves.closed (h : Moves id a es b) (closed : a.closed = true) : b.closed = true :=
  h.preserves (P := fun c => c.closed = true) (fun hmove => hmove.closed) closed

theorem Moves.singleton_eq (h : Moves id a es b) : b.singleton = a.singleton :=
  h.preserves (P := fun c => c.singleton = a.singleton)
    (fun hmove hc => hmove.singleton_eq.trans hc) rfl

theorem Moves.flying (h : Moves id a es b) :
    b.flying + es.count (.completed id) = a.flying + es.count (.admitted id) := by
  induction h with
  | refl => rfl
  | snoc _ hmove ih =>
    have hstep := hmove.flying
    rw [List.count_append, List.count_append]
    omega

/-- As long as a job is open, its counters account for every trigger that was accepted, modulo
2³². -/
theorem Moves.balance (h : Moves id a es b) (opened : b.closed = false) (kept : .cleared ∉ es)
    (undone : a.singleton = true → .refused id ∉ es) :
    b.pending + b.running + .ofNat (es.count (.completed id)) =
      a.pending + a.running + .ofNat (es.count (.answered id .queued)) := by
  induction h with
  | refl => rfl
  | @snoc b c es e hmoves hmove ih =>
    have hopen : b.closed = false := Bool.eq_false_iff.mpr fun hb =>
      Bool.eq_false_iff.mp opened (hmove.closed hb)
    have hstep := hmove.balance opened (fun he => kept (by simp [he])) fun single he =>
      undone (Moves.singleton_eq hmoves ▸ single) (by simp [he])
    have hrest := ih hopen (fun he => kept (by simp [he])) fun single he =>
      undone single (by simp [he])
    rw [List.count_append, List.count_append, Int32.ofNat_add, Int32.ofNat_add]
    grind

/-! ### Triggers that can be counted -/

/-- The triggers of a job can be counted throughout: those of a singleton at any rate, and others as
long as, with `n` of them from before, no more are accepted and not completed than a counter can
tell. -/
def Fits (id : JobId) (a : Account) (n : Int) (es : List Event) : Prop :=
  a.singleton = true ∨ a.Ample n ∧ ∀ fs, fs <+: es →
    n + fs.count (.answered id .queued) ≤ fs.count (.completed id) + 2147483647

/-- Of a job that has not been triggered no triggers are there from before. -/
theorem fits_untouched {singleton closed : Bool} (h : singleton = true ∨ Event.Within id es) :
    Fits id (untouched singleton closed) 0 es :=
  h.imp_right fun hwithin => ⟨ample_untouched _ _, fun fs hfs => by
    have hroom := hwithin fs hfs
    omega⟩

theorem Fits.of_append {fs : List Event} (h : Fits id a n (es ++ fs)) : Fits id a n es :=
  h.imp_right fun ⟨hn, hroom⟩ =>
    ⟨hn, fun gs hgs => hroom gs (hgs.trans (List.prefix_append es fs))⟩

theorem room_of_prefixes
    (h : ∀ fs, fs <+: e :: es →
      n + fs.count (.answered id .queued) ≤ fs.count (.completed id) + 2147483647) :
    n + [e].count (.answered id .queued) ≤ 2147483647 := by
  have hnow := h [] List.nil_prefix
  have hnext := h [e] (List.prefix_append [e] es)
  rw [List.count_nil, List.count_nil] at hnow
  -- no event is both an acceptance and a completion
  by_cases hcompleted : e = .completed id
  · subst hcompleted
    simpa using hnow
  · have hnone : [e].count (.completed id) = 0 :=
      List.count_eq_zero.mpr fun hmem => hcompleted (List.mem_singleton.mp hmem).symm
    rw [hnone] at hnext
    omega

/-- No counter has wrapped around, and there is room for the next trigger that is accepted. -/
theorem Fits.exists_ample (h : Fits id a n (e :: es)) (ha : a.Sound) :
    ∃ m, a.Ample m ∧ m + [e].count (.answered id .queued) ≤ 2147483647 := by
  obtain single | ⟨hn, hroom⟩ := h
  · have hcount := List.count_le_length (l := [e]) (a := Event.answered id .queued)
    rw [List.length_singleton] at hcount
    exact ⟨2, ha.ample single, by omega⟩
  · exact ⟨n, hn, room_of_prefixes hroom⟩

theorem Move.fits (h : Move id a e b) (hfits : Fits id a n (e :: es)) :
    Fits id b (n + [e].count (.answered id .queued) - [e].count (.completed id)) es := by
  obtain single | ⟨hn, hroom⟩ := hfits
  · exact Or.inl (h.singleton_eq.trans single)
  · refine Or.inr ⟨h.ample hn (room_of_prefixes hroom), fun fs hfs => ?_⟩
    have hlast := hroom (e :: fs) ((List.prefix_cons_inj e).mpr hfs)
    rw [← List.singleton_append, List.count_append, List.count_append] at hlast
    push_cast at hlast
    omega

/-- After some moves, what is yet to be accepted can still be counted. -/
theorem Moves.fits {fs : List Event} (h : Moves id a es b) (hfits : Fits id a n (es ++ fs)) :
    Fits id b (n + es.count (.answered id .queued) - es.count (.completed id)) fs := by
  induction h generalizing fs with
  | refl => simpa using hfits
  | @snoc b c es e hmoves hmove ih =>
    rw [List.append_assoc] at hfits
    have hlast := hmove.fits (ih hfits)
    rw [List.count_append, List.count_append]
    refine cast (congrArg (Fits id c · fs) ?_) hlast
    push_cast
    omega

theorem Fits.ample (h : Fits id a n []) (ha : a.Sound) : a.Ample 2147483647 := by
  obtain single | ⟨hn, hroom⟩ := h
  · exact (ha.ample single).mono (by omega)
  · have hnow := hroom [] List.nil_prefix
    rw [List.count_nil, List.count_nil] at hnow
    exact hn.mono (by omega)

/-- As long as the triggers can be counted, no counter wraps around. -/
theorem Moves.ample (h : Moves id a es b) (ha : a.Sound) (hfits : Fits id a n es) :
    b.Ample 2147483647 := by
  have hlast := Moves.fits h ((List.append_nil es).symm ▸ hfits)
  exact hlast.ample (Moves.sound h ha)

/-- What is pending or under way was accepted and is not completed. -/
theorem Moves.triggers_eq (h : Moves id a es b) (ha : a.Sound) (hfits : Fits id a n es)
    (opened : b.closed = false) (kept : .cleared ∉ es)
    (undone : a.singleton = true → .refused id ∉ es) :
    b.pending.toInt + b.underWay + es.count (.completed id) =
      a.pending.toInt + a.underWay + es.count (.answered id .queued) := by
  induction h with
  | refl => rfl
  | @snoc b c es e hmoves hmove ih =>
    simp only [List.mem_append, List.mem_singleton, not_or] at kept undone
    have hopen : b.closed = false := Bool.eq_false_iff.mpr fun hb =>
      Bool.eq_false_iff.mp opened (hmove.closed hb)
    obtain ⟨m, hm, hroom⟩ := (Moves.fits hmoves hfits).exists_ample (Moves.sound hmoves ha)
    have hstep := hmove.triggers_eq hm hroom opened (Ne.symm kept.2) fun single =>
      Ne.symm (undone (Moves.singleton_eq hmoves ▸ single)).2
    have hrest := ih hfits.of_append hopen kept.1 fun single => (undone single).1
    rw [List.count_append, List.count_append]
    push_cast
    omega

/-- Nothing comes to the pool that was not accepted. -/
theorem Moves.unadmitted_le (h : Moves id a es b) (ha : a.Sound) (hfits : Fits id a n es) :
    b.pending.toInt + b.held.toNat + es.count (.admitted id) ≤
      a.pending.toInt + a.held.toNat + es.count (.answered id .queued) := by
  induction h with
  | refl => simp
  | @snoc b c es e hmoves hmove ih =>
    obtain ⟨m, hm, hroom⟩ := (Moves.fits hmoves hfits).exists_ample (Moves.sound hmoves ha)
    have hstep := hmove.unadmitted_le hm hroom
    have hrest := ih hfits.of_append
    rw [List.count_append, List.count_append]
    push_cast
    omega

/-- What was accepted comes to the pool one by one, save for a trigger of a singleton that takes the
place of one that is put back. -/
theorem Moves.unadmitted_eq (h : Moves id a es b) (ha : a.Sound) (hfits : Fits id a n es)
    (opened : b.closed = false) (kept : .cleared ∉ es)
    (undone : a.singleton = true → .refused id ∉ es) :
    b.pending.toInt + b.held.toNat + es.count (.admitted id) =
      a.pending.toInt + a.held.toNat + es.count (.answered id .queued) := by
  have htriggers := Moves.triggers_eq h ha hfits opened kept undone
  have hflying := Moves.flying h
  rw [underWay, underWay] at htriggers
  omega

end Account

end Metronome
