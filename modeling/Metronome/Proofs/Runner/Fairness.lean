import Mathlib.Data.List.TakeWhile
import Metronome.Proofs.Runner.Refusal

/-!
# Fairness of the line

A job comes back to the line in four ways: by a trigger, by a further trigger when it is taken, by
the end of a run of a singleton, and by a refusal of the pool. The first three put it at the end,
behind everyone who waits. The last one puts it at the head, but then the job had been at the head
before, and the pool has not run it. So whoever waits in line is passed by each of the others once
at most, however many triggers these have and however often they are triggered again, and only by
those that stood in front of it or that the dispatch thread had in hand.

The order in line is looked at for two jobs at a time. A third one that joins or leaves does not
change it, so that it is enough to know of each step who may get in front.

## Main definitions

* `Line.Ahead` — one job stands in front of another one
* `Event.passages` — the runs of a job that were both taken from the line and admitted
* `Shift.Waited` — what has become of a job while another one stands in line

## Main results

* `Shift.Step.ahead` — only a refused job gets in front of another one
* `Shift.Waited.snoc` — what a step does to two jobs, one of which waits
* `Shift.Reachable.not_overtaken` — a job that waits is passed by each of the others once at most
-/

namespace Metronome

namespace Line

variable {l rest : Line} {x y z : JobId}

/-- One job stands in line in front of another one. -/
def Ahead (l : Line) (y x : JobId) : Prop := [y, x].Sublist l.order

theorem Ahead.mem_left (h : l.Ahead y x) : y ∈ l.order := h.subset List.mem_cons_self

/-- Nobody gets in front of a job that stands in line when someone joins at the end. -/
theorem Sound.ahead_of_pushBack (h : l.Sound) (hx : x ∈ l.order)
    (hahead : (l.pushBack z).Ahead y x) : l.Ahead y x := by
  by_cases hz : z ∈ l.order
  · rwa [pushBack_of_mem h hz] at hahead
  · rw [Ahead, order_pushBack h hz] at hahead
    obtain ⟨front, back, heq, hfront, hback⟩ := List.sublist_append_iff.mp hahead
    obtain rfl | rfl := List.sublist_singleton.mp hback
    · rw [List.append_nil] at heq
      rwa [Ahead, heq]
    · -- the job at the end is not the one that stood in line before
      have hlast := congrArg List.getLast? heq
      rw [List.getLast?_concat] at hlast
      cases hlast
      exact absurd hx hz

/-- Only the one who joins at the front gets in front of the others. -/
theorem Sound.ahead_of_pushFront (h : l.Sound) (hahead : (l.pushFront z).Ahead y x) :
    l.Ahead y x ∨ y = z := by
  by_cases hz : z ∈ l.order
  · rw [pushFront_of_mem h hz] at hahead
    exact Or.inl hahead
  · rw [Ahead, order_pushFront h hz] at hahead
    obtain hrest | ⟨back, heq, -⟩ := List.sublist_cons_iff.mp hahead
    · exact Or.inl hrest
    · exact Or.inr (List.cons.inj heq).1

theorem ahead_of_popFront (hpop : l.popFront = some (z, rest)) (h : rest.Ahead y x) :
    l.Ahead y x := by
  rw [Ahead, order_of_popFront hpop]
  exact h.cons z

/-- The job at the head of the line stands in front of all others. -/
theorem ahead_of_head (hpop : l.popFront = some (y, rest)) (hx : x ∈ l.order) (hne : y ≠ x) :
    l.Ahead y x := by
  rw [order_of_popFront hpop] at hx
  obtain rfl | hx := List.mem_cons.mp hx
  · exact absurd rfl hne
  · rw [Ahead, order_of_popFront hpop]
    exact (List.singleton_sublist.mpr hx).cons_cons y

end Line

namespace Runner

variable {r : Runner} {id x y : JobId}

/-! ### Who gets in front -/

theorem ahead_of_enqueue (hr : r.line.Sound) (hx : x ∈ r.line.order)
    (h : (r.enqueue id).2.line.Ahead y x) : r.line.Ahead y x := by
  cases hst : r.roster.state? id with
  | none => rwa [enqueue_none hst] at h
  | some st =>
    obtain ⟨-, -, heq⟩ | ⟨-, -, -, heq⟩ | ⟨-, heq⟩ := enqueue_cases hst
    · rwa [heq] at h
    · rw [heq] at h
      exact h
    · rw [heq] at h
      exact hr.ahead_of_pushBack hx h

theorem ahead_of_pop (hr : r.line.Sound) (hx : x ∈ r.line.order) (htaken : r.pop.1 ≠ .taken x)
    (h : r.pop.2.line.Ahead y x) : r.line.Ahead y x := by
  obtain heq | ⟨id, line, hline, ⟨-, heq⟩ | ⟨st, -, -, heq⟩⟩ := r.pop_cases
  · rwa [heq] at h
  · rw [heq] at h
    exact Line.ahead_of_popFront hline h
  · rw [heq] at h htaken
    refine Line.ahead_of_popFront hline ?_
    dsimp only at h
    split at h
    · -- the job that goes to the end is not the one that waits, which is still in line
      have hne : x ≠ id := fun hxid => htaken (congrArg _ hxid.symm)
      have hx' : x ∈ line.order := (hr.mem_popFront hline).mpr ⟨hne, hx⟩
      exact (hr.popFront hline).ahead_of_pushBack hx' h
    · exact h

/-- A refused job may get in front of the others. -/
theorem ahead_of_requeue (hr : r.line.Sound) (h : (r.requeue id).line.Ahead y x) :
    r.line.Ahead y x ∨ y = id := by
  cases hclosed : r.roster.isClosed id with
  | true =>
    rw [requeue_of_closed hclosed] at h
    exact Or.inl h
  | false =>
    rw [requeue_of_open hclosed] at h
    exact hr.ahead_of_pushFront h

theorem ahead_of_complete (hr : r.line.Sound) (hx : x ∈ r.line.order)
    (h : (r.complete id).line.Ahead y x) : r.line.Ahead y x := by
  unfold complete at h
  dsimp only at h
  split at h
  · exact h
  · split at h
    · exact hr.ahead_of_pushBack hx h
    · exact h

/-- The job that is taken from the line was in front of all others, and is not any more. -/
theorem ahead_of_taken (hr : r.line.Sound) (hx : x ∈ r.line.order) (hne : y ≠ x)
    (htaken : r.pop.1 = .taken y) : r.line.Ahead y x ∧ ¬ r.pop.2.line.Ahead y x := by
  obtain heq | ⟨id, line, hline, ⟨-, heq⟩ | ⟨st, -, -, heq⟩⟩ := r.pop_cases
  · rw [heq] at htaken
    cases htaken
  · rw [heq] at htaken
    cases htaken
  · rw [heq] at htaken ⊢
    cases htaken
    have hout : y ∉ line.order := fun hin => ((hr.mem_popFront hline).mp hin).1 rfl
    refine ⟨Line.ahead_of_head hline hx hne, fun h => hout ?_⟩
    -- whether it goes to the end or leaves, it would have to be among those that stood behind it
    dsimp only at h
    split at h
    · have hx' : x ∈ line.order := (hr.mem_popFront hline).mpr ⟨hne.symm, hx⟩
      exact ((hr.popFront hline).ahead_of_pushBack hx' h).mem_left
    · exact h.mem_left

end Runner

namespace Event

variable {y : JobId} {e : Event} {es : List Event}

/-- The runs of a job that were both taken from the line and admitted by the pool: those that were
admitted after the first time it was taken. -/
def passages (y : JobId) (es : List Event) : Nat :=
  -- an admission before the first pop belongs to a pop that came before all of these events
  (es.dropWhile (· ≠ .taken y)).count (.admitted y)

theorem passages_of_not_mem (h : .taken y ∉ es) : passages y es = 0 := by
  have hall : es.dropWhile (· ≠ .taken y) = [] :=
    List.dropWhile_eq_nil_iff.mpr fun e he => decide_eq_true fun heq => h (heq ▸ he)
  rw [passages, hall, List.count_nil]

theorem passages_concat (y : JobId) (es : List Event) (e : Event) :
    passages y (es ++ [e]) =
      passages y es + if .taken y ∈ es ∧ e = .admitted y then 1 else 0 := by
  by_cases hmem : .taken y ∈ es
  · have hsome : ¬ (es.dropWhile (· ≠ .taken y)).isEmpty = true := fun hempty => by
      have hall := List.dropWhile_eq_nil_iff.mp (List.isEmpty_iff.mp hempty) _ hmem
      exact of_decide_eq_true hall rfl
    rw [passages, List.dropWhile_append, if_neg hsome, List.count_append, List.count_singleton]
    simp only [hmem, true_and, beq_iff_eq]
    rfl
  · rw [passages_of_not_mem hmem, if_neg (fun hand => hmem hand.1)]
    by_cases he : e = .taken y
    · subst he
      have hall : ∀ e ∈ es, decide (e ≠ .taken y) = true :=
        fun e he => decide_eq_true fun heq => hmem (heq ▸ he)
      rw [passages, List.dropWhile_append_of_pos hall, List.dropWhile_cons_of_neg (by simp)]
      rfl
    · refine passages_of_not_mem fun hin => ?_
      obtain hin | hin := List.mem_append.mp hin
      · exact hmem hin
      · exact he (List.mem_singleton.mp hin).symm

theorem passages_concat_of_ne (he : e ≠ .admitted y) : passages y (es ++ [e]) = passages y es := by
  rw [passages_concat, if_neg fun hand => he hand.2, Nat.add_zero]

end Event

namespace Shift

variable {s t u : Shift} {x y : JobId} {e : Event} {es : List Event}

/-! ### Steps -/

/-- Nobody gets in front of a job that stands in line, save for one that the pool has refused. -/
theorem Step.ahead (h : Step s e t) (hs : s.runner.line.Sound) (hx : x ∈ s.runner.line.order)
    (htaken : e ≠ .taken x) (hahead : t.runner.line.Ahead y x) :
    s.runner.line.Ahead y x ∨ e = .refused y := by
  cases h with
  | enqueue => exact Or.inl (Runner.ahead_of_enqueue hs hx hahead)
  | pop =>
    refine Or.inl (Runner.ahead_of_pop hs hx (fun hpop => htaken ?_) hahead)
    rw [hpop]
    rfl
  | takeBack => exact (Runner.ahead_of_requeue hs hahead).imp_right (congrArg _ ·.symm)
  | complete => exact Or.inl (Runner.ahead_of_complete hs hx hahead)
  | clear => exact absurd hahead.mem_left List.not_mem_nil
  -- the other steps leave the line alone
  | _ => exact Or.inl hahead

/-- The dispatch thread gets a job into its hand when it takes it from the line. -/
theorem Step.hand (h : Step s e t) (hhand : t.dispatcher.hand? = some y) :
    s.dispatcher.hand? = some y ∨ e = .taken y := by
  cases h with
  | look | grant | takeBack => cases hhand
  | pop =>
    right
    revert hhand
    cases s.runner.pop.1 with
    | taken id => exact fun hhand => congrArg _ (Option.some.inj hhand)
    | _ => nofun
  | refuse id cause holding =>
    left
    rw [holding]
    exact hhand
  | _ => exact Or.inl hhand

/-- What is seen of a pop tells what was popped. -/
theorem Step.pop_of_taken (h : Step s e t) (he : e = .taken y) :
    s.runner.pop.1 = .taken y ∧ t.runner = s.runner.pop.2 := by
  cases h with
  | pop =>
    refine ⟨?_, rfl⟩
    revert he
    cases s.runner.pop.1 with
    | taken id => exact fun he => congrArg _ (Event.taken.inj he)
    | _ => nofun
  | _ => cases he

/-- A job that is admitted or refused leaves the hand of the dispatch thread. -/
theorem Step.hand_of_offered (h : Step s e t) (he : e = .admitted y ∨ e = .refused y) :
    s.dispatcher.hand? = some y ∧ t.dispatcher.hand? = none := by
  cases h with
  | grant id pool holding =>
    obtain he | he := he
    · cases he
      exact ⟨congrArg _ holding, rfl⟩
    · cases he
  | takeBack id cause refused =>
    obtain he | he := he
    · cases he
    · cases he
      exact ⟨congrArg _ refused, rfl⟩
  | pop =>
    revert he
    cases s.runner.pop.1 <;> rintro (he | he) <;> cases he
  | _ => obtain he | he := he <;> cases he

/-- A job leaves the line by its own turn, or when the line is dropped. -/
theorem Step.stays (h : Step s e t) (hs : Reachable s) (hx : x ∈ s.runner.line.order)
    (htaken : e ≠ .taken x) (hdropped : e ≠ .dropped x) (hcleared : e ≠ .cleared) :
    x ∈ t.runner.line.order := by
  obtain ⟨st, hst⟩ := Roster.exists_state?_iff.mpr (hs.known.line x hx)
  obtain ⟨st', -, hmove⟩ := h.move hs.line_sound hst
  exact queued_account.mp (hmove.queued (queued_account.mpr hx) htaken hdropped hcleared)

/-! ### Runs -/

/-- What has become of a job in the course of events while another one stands in line. -/
structure Waited (s : Shift) (x y : JobId) (es : List Event) (t : Shift) : Prop where
  mem : x ∈ t.runner.line.order
  /-- Only from in front of the other job, or from the hand of the dispatch thread, it has come to
  the head of the line. -/
  origin : t.runner.line.Ahead y x ∨ t.dispatcher.hand? = some y ∨ .taken y ∈ es →
    s.runner.line.Ahead y x ∨ s.dispatcher.hand? = some y
  /-- Once it was taken, it is in one place at a time. -/
  single : .taken y ∈ es → t.runner.line.Ahead y x → t.dispatcher.hand? ≠ some y
  /-- Once it was admitted after that, it is behind the other job. -/
  spent : Event.passages y es ≠ 0 → ¬ t.runner.line.Ahead y x ∧ t.dispatcher.hand? ≠ some y
  bound : Event.passages y es ≤ 1

theorem Waited.refl (hx : x ∈ s.runner.line.order) : Waited s x y [] s where
  mem := hx
  origin h := by
    obtain h | h | h := h
    · exact Or.inl h
    · exact Or.inr h
    · exact absurd h List.not_mem_nil
  single h := absurd h List.not_mem_nil
  spent h := absurd rfl h
  bound := Nat.zero_le 1

theorem Waited.snoc (h : Waited s x y es t) (ht : Reachable t) (hstep : Step t e u)
    (htaken : e ≠ .taken x) (hdropped : e ≠ .dropped x) (hcleared : e ≠ .cleared) (hne : y ≠ x) :
    Waited s x y (es ++ [e]) u := by
  have hahead := hstep.ahead ht.line_sound h.mem htaken (y := y)
  have hhand := hstep.hand (y := y)
  have hpop (he : e = .taken y) :
      t.runner.line.Ahead y x ∧ ¬ u.runner.line.Ahead y x := by
    obtain ⟨hpop, hu⟩ := hstep.pop_of_taken he
    rw [hu]
    exact Runner.ahead_of_taken ht.line_sound h.mem hne hpop
  have hoffer (he : e = .admitted y ∨ e = .refused y) := hstep.hand_of_offered he
  -- the other job moves from the line to the hand, and from there to the pool or back into line
  constructor
  · exact hstep.stays ht h.mem htaken hdropped hcleared
  · rintro (hu | hu | hmem)
    · obtain ht' | he := hahead hu
      · exact h.origin (Or.inl ht')
      · exact h.origin (Or.inr (Or.inl (hoffer (Or.inr he)).1))
    · obtain ht' | he := hhand hu
      · exact h.origin (Or.inr (Or.inl ht'))
      · exact h.origin (Or.inl (hpop he).1)
    · obtain hmem | he := List.mem_append.mp hmem
      · exact h.origin (Or.inr (Or.inr hmem))
      · exact h.origin (Or.inl (hpop (List.mem_singleton.mp he).symm).1)
  · intro hmem hu hheld
    by_cases he : e = .taken y
    · exact (hpop he).2 hu
    · have hbefore : .taken y ∈ es := (List.mem_append.mp hmem).resolve_right fun hlast =>
        he (List.mem_singleton.mp hlast).symm
      obtain ht' | hrefused := hahead hu
      · exact h.single hbefore ht' ((hhand hheld).resolve_right he)
      · rw [(hoffer (Or.inr hrefused)).2] at hheld
        cases hheld
  · intro hsome
    rw [Event.passages_concat] at hsome
    by_cases hlast : .taken y ∈ es ∧ e = .admitted y
    · obtain ⟨hmem, rfl⟩ := hlast
      obtain ⟨hheld, hnone⟩ := hoffer (Or.inl rfl)
      refine ⟨fun hu => ?_, by rw [hnone]; nofun⟩
      obtain ht' | hrefused := hahead hu
      · exact h.single hmem ht' hheld
      · cases hrefused
    · rw [if_neg hlast, Nat.add_zero] at hsome
      obtain ⟨hbehind, hfree⟩ := h.spent hsome
      refine ⟨fun hu => ?_, fun hu => ?_⟩
      · exact (hahead hu).elim hbehind fun he => hfree (hoffer (Or.inr he)).1
      · exact (hhand hu).elim hfree fun he => hbehind (hpop he).1
  · rw [Event.passages_concat]
    split
    · next hlast =>
      -- what is in the hand of the dispatch thread has not been admitted yet
      have hnone : Event.passages y es = 0 := by
        by_contra hsome
        exact (h.spent hsome).2 (hoffer (Or.inl hlast.2)).1
      rw [hnone]
    · exact h.bound

theorem Waited.of_passages (h : Waited s x y es t) (hsome : Event.passages y es ≠ 0) :
    s.runner.line.Ahead y x ∨ s.dispatcher.hand? = some y := by
  refine h.origin (Or.inr (Or.inr ?_))
  by_contra hmem
  exact hsome (Event.passages_of_not_mem hmem)

/-- This goes on until the line is dropped, and then nothing is handed to the pool any more. -/
theorem Run.waited (h : Run s es t) (hs : Reachable s) (hx : x ∈ s.runner.line.order)
    (hne : y ≠ x) (htaken : .taken x ∉ es) (hdropped : .dropped x ∉ es) :
    Waited s x y es t ∨ t.Retired ∧ Event.passages y es ≤ 1 ∧
      (Event.passages y es ≠ 0 → s.runner.line.Ahead y x ∨ s.dispatcher.hand? = some y) := by
  induction h with
  | refl => exact Or.inl (.refl hx)
  | @snoc t u es e hrun hstep ih =>
    have ht : Reachable t := hs.run hrun
    rw [List.mem_append, List.mem_singleton, not_or] at htaken hdropped
    obtain hwaited | ⟨hretired, hbound, horigin⟩ := ih htaken.1 hdropped.1
    · by_cases hcleared : e = .cleared
      · -- the line is dropped only after the dispatch thread has come to its end
        subst hcleared
        have hsame : Event.passages y (es ++ [.cleared]) = Event.passages y es :=
          Event.passages_concat_of_ne nofun
        rw [hsame]
        exact Or.inr ⟨hstep.retired_of_cleared ht rfl, hwaited.bound, hwaited.of_passages⟩
      · exact Or.inl (hwaited.snoc ht hstep (Ne.symm htaken.2) (Ne.symm hdropped.2) hcleared hne)
    · obtain ⟨hretired', hnone⟩ := hstep.retired hretired
      rw [Event.passages_concat_of_ne (hnone y)]
      exact Or.inr ⟨hretired', hbound, horigin⟩

/-- Every admission follows a pop, save for the one that was under way at the beginning. -/
theorem Run.count_admitted (h : Run s es t) :
    es.count (.admitted y) ≤
        Event.passages y es + (if s.dispatcher.hand? = some y then 1 else 0) ∧
      (.taken y ∉ es → t.dispatcher.hand? = some y →
        s.dispatcher.hand? = some y ∧ es.count (.admitted y) = 0) := by
  -- before the first pop, the hand can only hold the job that was there at the beginning
  induction h with
  | refl => exact ⟨Nat.zero_le _, fun _ hheld => ⟨hheld, rfl⟩⟩
  | @snoc t u es e hrun hstep ih =>
    obtain ⟨hle, hfirst⟩ := ih
    rw [Event.passages_concat, List.count_append, List.count_singleton]
    by_cases he : e = .admitted y
    · subst he
      obtain ⟨hheld, hnone⟩ := hstep.hand_of_offered (Or.inl rfl)
      refine ⟨?_, fun _ hheld' => ?_⟩
      · by_cases hmem : .taken y ∈ es
        · simp only [hmem, beq_self_eq_true, and_self, if_true]
          omega
        · obtain ⟨hstart, hzero⟩ := hfirst hmem hheld
          simp [hstart, hzero]
      · rw [hnone] at hheld'
        cases hheld'
    · simp only [he, beq_iff_eq, and_false, if_false, Nat.add_zero]
      refine ⟨hle, fun hmem hheld => ?_⟩
      rw [List.mem_append, List.mem_singleton, not_or] at hmem
      exact hfirst hmem.1 ((hstep.hand hheld).resolve_right (Ne.symm hmem.2))

/-- While a job stands in line, any other job that is taken from the line in this time is admitted
by the pool once at most, and only if it stood in front of the first one or was in the hand of the
dispatch thread. There is no other admission of it, save for the one that was under way. -/
theorem Reachable.not_overtaken (hs : Reachable s) (hx : x ∈ s.runner.line.order)
    (h : Run s es t) (htaken : .taken x ∉ es) (hdropped : .dropped x ∉ es) (hne : y ≠ x) :
    Event.passages y es ≤ 1 ∧
    (Event.passages y es ≠ 0 → s.runner.line.Ahead y x ∨ s.dispatcher.hand? = some y) ∧
    es.count (.admitted y) ≤
      Event.passages y es + (if s.dispatcher.hand? = some y then 1 else 0) := by
  have hcount := (Run.count_admitted h (y := y)).1
  obtain hwaited | ⟨-, hbound, horigin⟩ := Run.waited h hs hx hne htaken hdropped
  · exact ⟨hwaited.bound, hwaited.of_passages, hcount⟩
  · exact ⟨hbound, horigin, hcount⟩

/-- The first of two jobs in line has two triggers. One of them is admitted while the other job
waits, and before that it stood in front of the other job. -/
theorem not_overtaken_backlogged : ∃ t, Run backlogged [.quiet, .taken 0, .admitted 0] t ∧
    1 ∈ backlogged.runner.line.order ∧
    Event.passages 0 [.quiet, .taken 0, .admitted 0] = 1 ∧ backlogged.runner.line.Ahead 0 1 := by
  obtain ⟨r, hpop, hpool⟩ := Runner.pop_of_order order_backlogged
    (Roster.isClosed_of_state? state?_backlogged)
  let s₁ : Shift := { backlogged with dispatcher := .ready }
  let s₂ : Shift := { s₁.withRunner r with dispatcher := .holding 0 }
  have hlook : Step backlogged .quiet s₁ := .look backlogged rfl (by decide) rfl
  have htake : Step s₁ (.taken 0) s₂ := by
    have hstep := Step.pop s₁ rfl
    rw [show s₁.runner.pop = (.taken 0, r) from hpop] at hstep
    exact hstep
  have hgrant := Step.grant s₂ 0 { Pool.new 1 none with inFlight := 1, waiting := 1 } rfl
    (by rw [show s₂.runner.pool = .new 1 none from hpool]; rfl)
  have hrun := ((Course.single hlook).snoc htake).snoc hgrant
  have hmem : 1 ∈ backlogged.runner.line.order := by
    rw [order_backlogged]
    decide
  have hone : Event.passages 0 [.quiet, .taken 0, .admitted 0] = 1 := by decide
  have hne : (0 : JobId) ≠ 1 := by decide
  have hreachable : Reachable backlogged := ⟨_, _, fresh_backlogged, run_backlogged⟩
  obtain ⟨-, horigin, -⟩ := Reachable.not_overtaken hreachable hmem hrun (by decide) (by decide) hne
  exact ⟨_, hrun, hmem, hone, (horigin (by decide)).resolve_right (by decide)⟩

end Shift

end Metronome
