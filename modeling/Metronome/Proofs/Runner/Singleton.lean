import Metronome.Proofs.Runner.Conservation

/-!
# Singletons

The pool holds at most one run of a singleton at a time. The triggers that come in while it is
there leave one run behind, however many they are: the first of them is held back, the others are
coalesced, and on completion the job goes into line. This takes all operations together, since
each of them has to agree on when a singleton may stand in line.

## Main definitions

* `Event.answers` — the answers to the triggers of a job
* `Shift.Rests` — the runner has nothing left to do for a job

## Main results

* `Account.Moves.follow_up` — the triggers that come in while a run of a singleton is in flight
* `Account.Moves.runs_eq_of_unasked` — the run that is left for a singleton
* `Shift.Reachable.exclusion` — both, with the exclusion of overlapping runs, in a runner
-/

namespace Metronome

/-- Whether the event is the answer to a trigger of a job. -/
def Event.answers (id : JobId) : Event → Bool
  | .answered id' _ => id' == id
  | _ => false

/-- A trigger gets one of three answers. -/
theorem Event.countP_answers (id : JobId) (es : List Event) :
    es.countP (Event.answers id) =
      es.count (.answered id .queued) + es.count (.answered id .coalesced) +
        es.count (.answered id .refused) := by
  induction es with
  | nil => rfl
  | cons e es ih =>
    simp only [List.countP_cons, List.count_cons, ih]
    cases e with
    | answered id' answer =>
      by_cases hid : id' = id
      · subst hid
        cases answer <;> simp [Event.answers] <;> omega
      · simp [Event.answers, hid]
    | _ => simp [Event.answers]

namespace Account

variable {id : JobId} {a b : Account} {e : Event} {es : List Event}

/-- Of a singleton at most one run is in the pool. -/
theorem Sound.flying_le (h : a.Sound) (single : a.singleton = true) : a.flying ≤ 1 :=
  Nat.le_trans (Nat.le_add_right _ _) (h.single_underWay single)

/-- A singleton with a run in the pool is neither in hand nor in line. -/
theorem Sound.of_flying (h : a.Sound) (single : a.singleton = true) (flying : a.flying = 1) :
    a.held = false ∧ a.queued = false := by
  constructor
  · refine Bool.eq_false_iff.mpr fun hheld => ?_
    rw [h.flying_of_held single hheld] at flying
    cases flying
  · refine Bool.eq_false_iff.mpr fun hqueued => ?_
    have hnone := h.single_queued single hqueued
    rw [underWay, flying] at hnone
    omega

/-- While the run of a singleton is in flight, its triggers are counted or coalesced, and nothing
else moves. -/
theorem Move.follow_up (h : Move id a e b) (ha : a.Sound) (single : a.singleton = true)
    (flying : a.flying = 1) (running : e ≠ .completed id) :
    b.flying = 1 ∧ b.pending.toInt = a.pending.toInt + [e].count (.answered id .queued) ∧
      (0 < [e].count (.answered id .coalesced) → 0 < a.pending.toInt) := by
  obtain ⟨hheld, hqueued⟩ := ha.of_flying single flying
  cases h with
  | other h =>
    rw [Event.count_eq_zero h rfl, Event.count_eq_zero h rfl]
    exact ⟨flying, (Int.add_zero _).symm, nofun⟩
  | close | turnAway | begin => simp [flying]
  | coalesce _ pending => simp [flying, Counter.pos_iff.mp pending]
  | hold _ pending =>
    rw [ha.pending_eq_zero single pending]
    simp [flying]
  | join free =>
    rw [ha.pending_eq_zero single (free single).1]
    simp [flying]
  | clear queued | drop queued | take queued => exact absurd queued (by rw [hqueued]; decide)
  | grant held | giveUp held | giveBack held => exact absurd held (by rw [hheld]; decide)
  | finishClosed | finish => exact absurd rfl running

/-- While its run is in flight, a singleton is open to one trigger. -/
theorem Moves.follow_up (h : Moves id a es b) (ha : a.Sound) (single : a.singleton = true)
    (flying : a.flying = 1) (pending : a.pending = 0) (running : .completed id ∉ es) :
    b.flying = 1 ∧ b.pending.toInt = es.count (.answered id .queued) ∧
      (0 < es.count (.answered id .coalesced) → 0 < b.pending.toInt) := by
  induction h with
  | refl => simp [flying, pending]
  | @snoc b c es e hmoves hmove ih =>
    obtain ⟨hflying, hpending, hcoalesced⟩ := ih fun hmem => running (by simp [hmem])
    have hsingle : b.singleton = true := (Moves.singleton_eq hmoves).trans single
    have hstep := hmove.follow_up (Moves.sound hmoves ha) hsingle hflying
      fun he => running (by simp [he])
    rw [List.count_append, List.count_append]
    push_cast
    refine ⟨hstep.1, ?_, fun hpos => ?_⟩
    · rw [hstep.2.1, hpending]
    · omega

theorem Move.runs_eq_of_unasked (h : Move id a e b) (ha : a.Sound) (single : a.singleton = true)
    (spent : a.held = true → a.pending = 0) (opened : b.closed = false) (kept : e ≠ .cleared)
    (unasked : e ≠ .answered id .queued) :
    (b.held = true → b.pending = 0) ∧
      b.pending.toInt + b.held.toNat + [e].count (.admitted id) =
        a.pending.toInt + a.held.toNat := by
  cases h with
  | other h =>
    rw [Event.count_eq_zero h rfl]
    exact ⟨spent, Int.add_zero _⟩
  | take queued opened free =>
    -- the one trigger that a singleton can have pending is the one that it stands in line for
    have hpending := ha.single_asked single queued opened
    simp [hpending, free]
  | grant held => simp [held]
  | giveBack held => simp [held, spent held]
  | _ => grind

/-- A trigger that a singleton has accepted becomes one run, however often the pool refuses it, as
long as no other trigger comes in. -/
theorem Moves.runs_eq_of_unasked (h : Moves id a es b) (ha : a.Sound) (single : a.singleton = true)
    (free : a.held = false) (opened : b.closed = false) (kept : .cleared ∉ es)
    (unasked : .answered id .queued ∉ es) :
    (b.held = true → b.pending = 0) ∧
      b.pending.toInt + b.held.toNat + es.count (.admitted id) = a.pending.toInt := by
  induction h with
  | refl => simp [free]
  | @snoc b c es e hmoves hmove ih =>
    have hopen : b.closed = false := Bool.eq_false_iff.mpr fun hb =>
      Bool.eq_false_iff.mp opened (hmove.closed hb)
    obtain ⟨hspent, hruns⟩ := ih hopen (fun hmem => kept (by simp [hmem]))
      fun hmem => unasked (by simp [hmem])
    have hsingle : b.singleton = true := (Moves.singleton_eq hmoves).trans single
    obtain ⟨hheld, hstep⟩ := hmove.runs_eq_of_unasked (Moves.sound hmoves ha) hsingle hspent opened
      (fun he => kept (by simp [he])) fun he => unasked (by simp [he])
    refine ⟨hheld, ?_⟩
    rw [List.count_append]
    push_cast
    omega

end Account

namespace Shift

variable {s t u : Shift} {id : JobId} {st : JobState} {es fs : List Event}

/-- The runner has nothing left to do for a job. -/
structure Rests (s : Shift) (id : JobId) : Prop where
  line : id ∉ s.runner.line.order
  hand : s.dispatcher.hand? ≠ some id
  flying : s.crew.flying id = 0

/-- Nothing is pending for a singleton at rest. -/
theorem Reachable.pending_of_rests (h : Reachable s) (hrests : s.Rests id)
    (hst : s.runner.roster.state? id = some st) (single : st.singleton = true) :
    st.pending = 0 := by
  have hsound := h.sound hst
  have hnone : (s.account id st).underWay = 0 := by
    change s.crew.flying id + (decide (s.dispatcher.hand? = some id)).toNat = 0
    rw [hrests.flying, decide_eq_false hrests.hand, Bool.toNat_false]
  refine hsound.pending_eq_zero single fun hpos => ?_
  exact (hsound.placed hpos).elim (fun hmem => hrests.line (queued_account.mp hmem))
    fun hbusy => absurd (hnone.symm.trans hbusy.2) (by decide)

theorem Run.singleton_eq {st' : JobState} (h : Run s es t) (hs : s.runner.line.Sound)
    (hst : s.runner.roster.state? id = some st) (hst' : t.runner.roster.state? id = some st') :
    st'.singleton = st.singleton := by
  obtain ⟨st₁, hst₁, hmoves⟩ := Run.exists_moves h hs hst
  obtain rfl : st₁ = st' := Option.some.inj (hst₁.symm.trans hst')
  exact Account.Moves.singleton_eq hmoves

/-- Of the triggers that come in while a run of a singleton is in flight and nothing is pending, one
is counted and the others are coalesced. -/
theorem Run.follow_up (h : Run s es t) (hs : Reachable s)
    (hst : s.runner.roster.state? id = some st) (single : st.singleton = true)
    (flying : s.crew.flying id = 1) (pending : st.pending = 0) (running : .completed id ∉ es)
    (opened : t.runner.turnsAway id = false) (asked : 0 < es.countP (Event.answers id)) :
    t.crew.flying id = 1 ∧ es.count (.answered id .queued) = 1 ∧
      es.count (.answered id .coalesced) = es.countP (Event.answers id) - 1 ∧
      ∃ st', t.runner.roster.state? id = some st' ∧ st'.pending = 1 := by
  obtain ⟨st', hst', hmoves⟩ := Run.exists_moves h hs.line_sound hst
  have hsingle : st'.singleton = true := (Account.Moves.singleton_eq hmoves).trans single
  have hsound := (hs.run h).sound hst'
  obtain ⟨hflying, hcount, hcoalesced⟩ : t.crew.flying id = 1 ∧
      st'.pending.toInt = es.count (.answered id .queued) ∧
      (0 < es.count (.answered id .coalesced) → 0 < st'.pending.toInt) :=
    Account.Moves.follow_up hmoves (hs.sound hst) single flying pending running
  have hrefused : es.count (.answered id .refused) = 0 :=
    List.count_eq_zero.mpr (Run.not_turned_away h hs.line_sound opened)
  -- if none was counted then none was coalesced either, and no trigger got an answer
  have hanswers := Event.countP_answers id es
  have hone : st'.pending = 1 :=
    hsound.pending_eq_one hsingle (Counter.pos_iff.mpr (by dsimp only [account]; omega))
  rw [hone, Int32.toInt_one] at hcount
  refine ⟨hflying, ?_, ?_, st', hst', hone⟩
  · omega
  · omega

/-- What is pending and in hand for a singleton becomes runs. -/
theorem Run.runs_eq (h : Run s es t) (hs : Reachable s)
    (hst : s.runner.roster.state? id = some st) (single : st.singleton = true)
    (flying : s.crew.flying id = 1) (opened : t.runner.turnsAway id = false)
    (hcalm : .refused id ∉ es ∨ .answered id .queued ∉ es) :
    ∃ st', t.runner.roster.state? id = some st' ∧
      st'.pending.toInt + (decide (t.dispatcher.hand? = some id)).toNat +
          es.count (.admitted id) =
        st.pending.toInt + es.count (.answered id .queued) := by
  obtain ⟨hopen, st', hst', hclosed⟩ := exists_state?_of_open opened
  obtain ⟨st₁, hst₁, hmoves⟩ := Run.moves h hs.line_sound hst'
  obtain rfl : st₁ = st := Option.some.inj (hst₁.symm.trans hst)
  have hsound := hs.sound hst
  have hkept : .cleared ∉ es := Run.not_cleared h hs.closing hopen
  have hfree : (s.account id st₁).held = false := (hsound.of_flying single flying).1
  refine ⟨st', hst', ?_⟩
  obtain hundone | hunasked := hcalm
  · have hruns := Account.Moves.unadmitted_eq (n := 0) hmoves hsound (Or.inl single) hclosed hkept
      fun _ => hundone
    rw [hfree, Bool.toNat_false, Nat.cast_zero, add_zero] at hruns
    exact hruns
  · have hruns := Account.Moves.runs_eq_of_unasked hmoves hsound single hfree hclosed hkept hunasked
    rw [List.count_eq_zero.mpr hunasked, Nat.cast_zero, add_zero]
    exact hruns.2

/-- At any time, at most one run of a singleton is in the pool. Whenever some triggers come in while
one is there and nothing is pending, one of them is counted and all others are coalesced; no run
overlaps the one in flight, and one run follows from them, besides those that later triggers ask
for. -/
theorem Reachable.exclusion (h : Reachable s) (hst : s.runner.roster.state? id = some st)
    (single : st.singleton = true) :
    s.crew.flying id ≤ 1 ∧
      ∀ es t, Run s es t → s.crew.flying id = 1 → st.pending = 0 → .completed id ∉ es →
        t.runner.turnsAway id = false → 0 < es.countP (Event.answers id) →
          es.count (.answered id .queued) = 1 ∧
          es.count (.answered id .coalesced) = es.countP (Event.answers id) - 1 ∧
          es.count (.admitted id) = 0 ∧
          ∀ fs u, Run t fs u → u.runner.turnsAway id = false →
            .refused id ∉ fs ∨ .answered id .queued ∉ fs →
              fs.count (.admitted id) ≤ 1 + fs.count (.answered id .queued) ∧
              (u.Rests id → fs.count (.admitted id) = 1 + fs.count (.answered id .queued)) := by
  refine ⟨(h.sound hst).flying_le single, ?_⟩
  intro es t hes flying pending running opened asked
  have ht := h.run hes
  obtain ⟨hflying, hqueued, hcoalesced, st₁, hst₁, hpending⟩ :=
    Run.follow_up hes h hst single flying pending running opened asked
  refine ⟨hqueued, hcoalesced, ?_, ?_⟩
  · obtain ⟨st', -, hmoves⟩ := Run.exists_moves hes h.line_sound hst
    have hadmitted : t.crew.flying id + es.count (.completed id) =
        s.crew.flying id + es.count (.admitted id) := Account.Moves.flying hmoves
    rw [hflying, flying, List.count_eq_zero.mpr running] at hadmitted
    omega
  · intro fs u hfs hopen hcalm
    have hsingle := (Run.singleton_eq hes h.line_sound hst hst₁).trans single
    obtain ⟨st₂, hst₂, hruns⟩ := Run.runs_eq hfs ht hst₁ hsingle hflying hopen hcalm
    have hsingle₂ := (Run.singleton_eq hfs ht.line_sound hst₁ hst₂).trans hsingle
    have hnonneg : 0 ≤ st₂.pending.toInt :=
      (((ht.run hfs).sound hst₂).ample hsingle₂).pending_nonneg
    rw [hpending, Int32.toInt_one] at hruns
    refine ⟨by omega, fun hrests => ?_⟩
    rw [(ht.run hfs).pending_of_rests hrests hst₂ hsingle₂, decide_eq_false hrests.hand,
      Bool.toNat_false, Int32.toInt_zero] at hruns
    omega

/-- Two triggers come in while the run of a singleton is in flight. -/
theorem exclusion_singleton : ∃ s es t, Reachable s ∧ s.crew.flying 0 = 1 ∧ Run s es t ∧
    es.countP (Event.answers 0) = 2 ∧ es.count (.answered 0 .queued) = 1 ∧
      es.count (.answered 0 .coalesced) = 1 := by
  obtain ⟨s, hrun, hopen, hflying, hst⟩ := run_singleton
  have hreach : Reachable s := ⟨_, _, fresh_singleton, hrun⟩
  have hturn : s.runner.turnsAway 0 = false := by
    rw [Runner.turnsAway, hopen, Roster.isClosed_of_state? hst]
    rfl
  let s₁ : Shift := { s with checked := 0 :: s.checked }
  let s₂ : Shift := { s₁ with checked := 0 :: s₁.checked }
  let s₃ : Shift :=
    { s₂.withRunner (s.runner.updateState 0 (·.addPending 1)) with checked := s₁.checked }
  let s₄ : Shift :=
    { s₃.withRunner { s₃.runner with coalesced := s₃.runner.coalesced + 1 } with
      checked := s.checked }
  have hqueued : s₂.runner.enqueue 0 = (.queued, s₃.runner) := by
    obtain ⟨-, hpos, -⟩ | ⟨-, -, -, heq⟩ | ⟨hfree, -⟩ := Runner.enqueue_cases hst
    · exact absurd hpos (by decide)
    · exact heq
    · exact absurd (hfree rfl).2 (by decide)
  have hst₃ := Runner.state?_updateState_self hst (·.addPending 1)
  have hcoalesced : s₃.runner.enqueue 0 = (.coalesced, s₄.runner) := by
    obtain ⟨-, -, heq⟩ | ⟨-, hnone, -⟩ | ⟨hfree, -⟩ := Runner.enqueue_cases hst₃
    · exact heq
    · exact absurd (by decide) hnone
    · exact absurd (by decide) (hfree rfl).1
  have hfirst : Step s₂ (.answered 0 .queued) s₃ := by
    have hstep := Step.enqueue s₂ 0 List.mem_cons_self
    rw [hqueued] at hstep
    exact hstep
  have hsecond : Step s₃ (.answered 0 .coalesced) s₄ := by
    have hstep := Step.enqueue s₃ 0 List.mem_cons_self
    rw [hcoalesced] at hstep
    exact hstep
  have hes := (((Course.single (Step.check s 0 hturn)).snoc (.check s₁ 0 hturn)).snoc hfirst).snoc
    hsecond
  have hend : s₄.runner.turnsAway 0 = false := by
    rw [Runner.turnsAway, show s₄.runner.closed = false from hopen,
      Roster.isClosed_of_state? (show s₄.runner.roster.state? 0 = _ from hst₃)]
    rfl
  obtain ⟨hone, hrest, -⟩ := (Reachable.exclusion hreach hst rfl).2 _ _ hes hflying rfl (by decide)
    hend (by decide)
  exact ⟨s, _, _, hreach, hflying, hes, by decide, hone, hrest⟩

end Shift

end Metronome
