import Metronome.Proofs.Job.Nesting

/-!
# Callbacks that begin and end at the same time

The status of a job and the number of its executing callbacks are two cells. A callback that begins
moves the count and then the status; the one that ends last moves the count, then the status, and
then looks at the count again, so that the job is shown as running if another callback has begun
meanwhile; and whoever starts a job looks at the count as well. Other threads may come in between
any two of these steps.

When all of them are through, a job with an executing callback is shown as running, unless it was
stopped or closed. The converse needs that no thread was late: between its look at the count and its
change of the status, the callback that it has seen may end and leave the job ready, and the job is
then shown as running with nothing executing.

## Main definitions

* `Traffic` — a run state with the threads that are in the middle of an operation
* `Traffic.Step`, `Traffic.Run` — a single access to one of the cells, and any interleaving

## Main results

* `Traffic.run_enter`, `Traffic.run_leave`, `Traffic.run_start` — the operations are made of the
  steps
* `Traffic.Run.settled` — the status when all threads are through
* `Traffic.restored_late` — a job that is shown as running while nothing executes
-/

namespace Metronome

namespace JobState

theorem status_transition (s : JobState) (src dst : JobStatus) :
    (s.transition src dst).2.status = if s.status = src then dst else s.status := by
  unfold transition
  split <;> rfl

/-- A status that a job is taken from is not the one that it has afterwards. -/
theorem status_transition_ne (s : JobState) {src dst : JobStatus} (h : dst ≠ src) :
    (s.transition src dst).2.status ≠ src := by
  rw [status_transition]
  split
  · exact h
  · assumption

theorem executing_transition (s : JobState) (src dst : JobStatus) :
    (s.transition src dst).2.executing = s.executing := by
  rw [transition_eq]

theorem isHalted_stop (s : JobState) : s.stop.2.status.isHalted = true := by
  unfold stop
  split
  · next h => rw [h]; rfl
  · next h => rw [h]; rfl
  · rfl
  · rfl

end JobState

/-- What a thread in the middle of an operation is about to do. -/
inductive Traffic.Stage
  /-- To show the job as running: it has counted the callback that begins. -/
  | entering
  /-- To show the job as ready: it has taken the last callback off the count. -/
  | leaving
  /-- To look whether a callback is executing. -/
  | checking
  /-- To show the job as running: it has seen a callback that is executing. -/
  | showing
deriving DecidableEq

/-- A run state with the threads that work on it. -/
structure Traffic where
  state : JobState
  /-- Threads inside a callback. -/
  inside : Nat := 0
  /-- Threads in the middle of an operation. -/
  passing : List Traffic.Stage := []

namespace Traffic

/-- What is seen of a step. -/
inductive Event
  | counted
  | entered
  | uncounted
  | rested
  | checked
  /-- A thread has shown the job as running because of what it had seen; by then, so many callbacks
  were executing. -/
  | restored (executing : Int)
  | started
  | halted
deriving DecidableEq

/-- A single access of a thread to the status or to the count. -/
inductive Step : Traffic → Event → Traffic → Prop
  /-- A callback that begins is counted. -/
  | count (s : Traffic) :
      Step s .counted
        { s with state := s.state.addExecuting 1, passing := s.passing ++ [.entering] }
  /-- A callback that was counted is shown, and begins. -/
  | enter (s : Traffic) (before after : List Stage)
      (entering : s.passing = before ++ .entering :: after) :
      Step s .entered
        { state := (s.state.transition .ready .running).2
          inside := s.inside + 1
          passing := before ++ after }
  /-- A callback has ended and is counted no more. The thread goes on if it was the last one. -/
  | uncount (s : Traffic) (busy : 0 < s.inside) :
      Step s .uncounted
        { state := s.state.addExecuting (-1)
          inside := s.inside - 1
          passing := s.passing ++ if s.state.executing = 1 then [.leaving] else [] }
  /-- The thread with the last callback shows the job as ready. -/
  | rest (s : Traffic) (before after : List Stage)
      (leaving : s.passing = before ++ .leaving :: after) :
      Step s .rested
        { s with
          state := (s.state.transition .running .ready).2
          passing := before ++ .checking :: after }
  /-- A thread that has made the job ready looks at the count. -/
  | check (s : Traffic) (before after : List Stage)
      (checking : s.passing = before ++ .checking :: after) :
      Step s .checked
        { s with
          passing := before ++ (if 0 < s.state.executing then [.showing] else []) ++ after }
  /-- It has seen a callback and shows the job as running. -/
  | restore (s : Traffic) (before after : List Stage)
      (showing : s.passing = before ++ .showing :: after) :
      Step s (.restored s.state.executing)
        { s with state := (s.state.transition .ready .running).2, passing := before ++ after }
  /-- Someone starts the job. The thread goes on if the job was stopped. -/
  | start (s : Traffic) :
      Step s .started
        { s with
          state := (s.state.transition .stopped .ready).2
          passing := s.passing ++
            if (s.state.transition .stopped .ready).1 then [.checking] else [] }
  /-- Someone stops the job. -/
  | stop (s : Traffic) : Step s .halted { s with state := s.state.stop.2 }
  /-- Someone closes the job. -/
  | close (s : Traffic) : Step s .halted { s with state := s.state.close }

/-- An interleaving of accesses. -/
abbrev Run : Traffic → List Event → Traffic → Prop := Course Step

variable {s t : Traffic} {e : Event} {es : List Event}

/-! ### The operations at one stroke -/

/-- A callback begins. -/
theorem run_enter (s : Traffic) :
    Run s [.counted, .entered] { s with state := s.state.enter, inside := s.inside + 1 } := by
  have hshow := Step.enter
    { s with state := s.state.addExecuting 1, passing := s.passing ++ [.entering] } s.passing [] rfl
  rw [List.append_nil] at hshow
  exact (Course.single (.count s)).snoc hshow

/-- A thread that has made the job ready shows it as running if a callback is executing. -/
theorem run_showRunning (s : Traffic) (passing : List Stage)
    (h : s.passing = passing ++ [.checking]) :
    ∃ es, Run s es { s with state := s.state.showRunning, passing := passing } := by
  have hcheck := Step.check s passing [] h
  unfold JobState.showRunning
  split
  · next hpos =>
    rw [if_pos hpos, List.append_nil] at hcheck
    have hrestore := Step.restore { s with passing := passing ++ [.showing] } passing [] rfl
    rw [List.append_nil] at hrestore
    exact ⟨_, (Course.single hcheck).snoc hrestore⟩
  · next hnone =>
    rw [if_neg hnone, List.append_nil, List.append_nil] at hcheck
    exact ⟨_, .single hcheck⟩

/-- A callback ends. -/
theorem run_leave (s : Traffic) (busy : 0 < s.inside) :
    ∃ es, Run s es { s with state := s.state.leave, inside := s.inside - 1 } := by
  have huncount := Step.uncount s busy
  unfold JobState.leave
  dsimp only
  split
  · next hlast =>
    rw [if_pos hlast] at huncount
    have hrest := Step.rest
      { state := s.state.addExecuting (-1), inside := s.inside - 1,
        passing := s.passing ++ [.leaving] } s.passing [] rfl
    obtain ⟨es, hshow⟩ := run_showRunning
      { state := ((s.state.addExecuting (-1)).transition .running .ready).2,
        inside := s.inside - 1, passing := s.passing ++ [.checking] } s.passing rfl
    exact ⟨_, ((Course.single huncount).snoc hrest).append hshow⟩
  · next hmore =>
    rw [if_neg hmore, List.append_nil] at huncount
    exact ⟨_, .single huncount⟩

/-- Someone starts the job. -/
theorem run_start (s : Traffic) : ∃ es, Run s es { s with state := s.state.start.2 } := by
  have hstart := Step.start s
  unfold JobState.start
  unfold JobState.transition at hstart ⊢
  by_cases hstopped : s.state.status = .stopped
  · rw [if_pos hstopped] at hstart ⊢
    obtain ⟨es, hshow⟩ := run_showRunning
      { s with state := { s.state with status := .ready }, passing := s.passing ++ [.checking] }
      s.passing rfl
    exact ⟨_, (Course.single hstart).append hshow⟩
  · rw [if_neg hstopped] at hstart ⊢
    rw [if_neg Bool.false_ne_true, List.append_nil] at hstart
    exact ⟨_, .single hstart⟩

/-! ### The status -/

/-- No callback is executing, and no thread is in the middle of an operation. -/
structure Idle (s : Traffic) : Prop where
  executing : s.state.executing = 0
  inside : s.inside = 0
  passing : s.passing = []
  status : s.state.status = .ready ∨ s.state.status = .stopped

/-- The count agrees with the threads, and a job that is shown as ready while a callback is
executing has a thread that will look after it. -/
structure Sound (s : Traffic) : Prop where
  executing : s.state.executing = s.inside + s.passing.count .entering
  ready : s.state.status = .ready → 0 < s.state.executing → s.passing ≠ []

/-- A job that is shown as running while no callback is executing has a thread that will make it
ready. -/
def Prompt (s : Traffic) : Prop :=
  s.state.status = .running → s.state.executing = 0 → .leaving ∈ s.passing

/-- A thread that goes on does not begin a callback. -/
theorem count_entering_ite (p : Prop) [Decidable p] {st : Stage} (h : st ≠ .entering) :
    (if p then [st] else []).count .entering = 0 := by
  split
  · exact List.count_eq_zero.mpr fun hmem => h (List.mem_singleton.mp hmem).symm
  · rfl

theorem Step.sound (h : Step s e t) (hs : s.Sound) : t.Sound := by
  have hexecuting := hs.executing
  cases h with
  | count =>
    constructor
    · simp only [JobState.addExecuting, List.count_append, List.count_singleton_self]
      omega
    · simp
  | enter before after entering =>
    rw [entering, List.count_append, List.count_cons_self] at hexecuting
    constructor
    · rw [JobState.executing_transition, List.count_append]
      push_cast at hexecuting ⊢
      omega
    · exact fun hready => absurd hready (s.state.status_transition_ne (by decide))
  | uncount busy =>
    constructor
    · have hleft := count_entering_ite (s.state.executing = 1)
        (by decide : Stage.leaving ≠ .entering)
      simp only [JobState.addExecuting, List.count_append, hleft]
      omega
    · intro hready hpos
      -- a callback was executing before, and somebody was on the way already
      have hmore : 0 < s.state.executing := by
        simp only [JobState.addExecuting] at hpos
        omega
      simp [hs.ready hready hmore]
  | rest before after leaving =>
    rw [leaving] at hexecuting
    constructor
    · rw [JobState.executing_transition]
      simpa [List.count_append, List.count_cons] using hexecuting
    · simp
  | check before after checking =>
    rw [checking] at hexecuting
    constructor
    · have hleft := count_entering_ite (0 < s.state.executing)
        (by decide : Stage.showing ≠ .entering)
      simpa [List.count_append, List.count_cons, hleft] using hexecuting
    · intro _ hpos
      have hpos : 0 < s.state.executing := hpos
      simp [hpos]
  | restore before after showing =>
    rw [showing] at hexecuting
    constructor
    · rw [JobState.executing_transition]
      simpa [List.count_append, List.count_cons] using hexecuting
    · exact fun hready => absurd hready (s.state.status_transition_ne (by decide))
  | start =>
    constructor
    · have hleft := count_entering_ite ((s.state.transition .stopped .ready).1 = true)
        (by decide : Stage.checking ≠ .entering)
      rw [JobState.executing_transition, List.count_append, hleft]
      exact hexecuting
    · intro hready hpos
      rw [JobState.executing_transition] at hpos
      by_cases hstopped : s.state.status = .stopped
      · simp [JobState.transition, hstopped]
      · rw [JobState.status_transition, if_neg hstopped] at hready
        simp [hs.ready hready hpos]
  | stop =>
    have hhalted := s.state.isHalted_stop
    constructor
    · rw [JobState.stop_eq]
      exact hexecuting
    · intro hready
      have hready : s.state.stop.2.status = .ready := hready
      rw [hready] at hhalted
      cases hhalted
  | close =>
    refine ⟨hexecuting, fun hready => ?_⟩
    cases hready

theorem Step.prompt (h : Step s e t) (hs : s.Sound) (hp : s.Prompt)
    (intime : ∀ n, e = .restored n → 0 < n) : t.Prompt := by
  have hexecuting := hs.executing
  cases h with
  | count =>
    intro _ hnone
    simp only [JobState.addExecuting] at hnone
    omega
  | enter before after entering =>
    -- the callback that begins has been counted
    intro _ hnone
    rw [JobState.executing_transition] at hnone
    rw [entering, List.count_append, List.count_cons_self] at hexecuting
    push_cast at hexecuting
    omega
  | uncount =>
    intro _ hnone
    -- it was the last callback, and its thread goes on
    have hone : s.state.executing = 1 := by
      simp only [JobState.addExecuting] at hnone
      omega
    simp [hone]
  | rest before after leaving =>
    exact fun hrunning => absurd hrunning (s.state.status_transition_ne (by decide))
  | check before after checking =>
    intro hrunning hnone
    have hmem := hp hrunning hnone
    rw [checking] at hmem
    simpa using hmem
  | restore =>
    -- nothing else can show a job as running while no callback is executing
    intro _ hnone
    rw [JobState.executing_transition] at hnone
    exact absurd (intime _ rfl) (by omega)
  | start =>
    intro hrunning hnone
    rw [JobState.executing_transition] at hnone
    rw [JobState.status_transition] at hrunning
    split at hrunning
    · cases hrunning
    · exact List.mem_append_left _ (hp hrunning hnone)
  | stop =>
    intro hrunning
    have hhalted := s.state.isHalted_stop
    have hrunning : s.state.stop.2.status = .running := hrunning
    rw [hrunning] at hhalted
    cases hhalted
  | close =>
    intro hrunning
    cases hrunning

theorem Run.sound (h : Run s es t) (hs : s.Sound) : t.Sound :=
  h.preserves (fun hstep hs => hstep.sound hs) hs

theorem Run.prompt (h : Run s es t) (hs : s.Sound) (hp : s.Prompt)
    (intime : ∀ n, .restored n ∈ es → 0 < n) : t.Prompt := by
  induction h with
  | refl => exact hp
  | snoc hrun hstep ih =>
    exact hstep.prompt (Run.sound hrun hs) (ih fun n hn => intime n (List.mem_append_left _ hn))
      fun n hn => intime n (by simp [hn])

theorem Idle.sound (h : s.Idle) : s.Sound := by
  constructor
  · rw [h.executing, h.inside, h.passing]
    rfl
  · intro _ hpos
    exact absurd hpos (by rw [h.executing]; decide)

theorem Idle.prompt (h : s.Idle) : s.Prompt := by
  intro hrunning
  obtain hstatus | hstatus := h.status <;> cases hstatus.symm.trans hrunning

/-- When all threads are through, a job with an executing callback is shown as running, unless it is
stopped or closed. A job that is shown as running has one, too, if all those who restored that
status were in time. -/
theorem Run.settled (h : Run s es t) (hs : s.Idle) (through : t.passing = [])
    (opened : t.state.status.isHalted = false) :
    (0 < t.state.executing → t.state.status = .running) ∧
    ((∀ n, .restored n ∈ es → 0 < n) → (t.state.status = .running ↔ 0 < t.state.executing)) := by
  have hsound := Run.sound h hs.sound
  have hforward (hpos : 0 < t.state.executing) : t.state.status = .running := by
    cases hstatus : t.state.status with
    | running => rfl
    | ready => exact absurd through (hsound.ready hstatus hpos)
    | stopped | closed =>
      rw [hstatus] at opened
      cases opened
  refine ⟨hforward, fun intime => ⟨fun hrunning => ?_, hforward⟩⟩
  have hprompt := Run.prompt h hs.sound hs.prompt intime hrunning
  have hexecuting := hsound.executing
  by_cases hnone : t.state.executing = 0
  · have hmem := hprompt hnone
    rw [through] at hmem
    exact absurd hmem List.not_mem_nil
  · omega

/-- The run state of a new job with a status and a count, and threads around it. -/
def cells (status : JobStatus) (executing : Int) (inside : Nat) (passing : List Stage) :
    Traffic where
  state := { JobState.new false none status with executing := executing }
  inside := inside
  passing := passing

theorem idle_cells (status : JobStatus) (h : status = .ready ∨ status = .stopped) :
    Idle (cells status 0 0 []) := ⟨rfl, rfl, rfl, h⟩

/-- A callback has begun, and nobody is late. -/
theorem settled_entered : Run (cells .ready 0 0 []) [.counted, .entered] (cells .running 1 1 []) ∧
    (JobStatus.running = .running ↔ (0 : Int) < 1) := by
  have hrun : Run (cells .ready 0 0 []) [.counted, .entered] (cells .running 1 1 []) :=
    run_enter _
  exact ⟨hrun, (Run.settled hrun (idle_cells .ready (Or.inl rfl)) rfl rfl).2 (by simp)⟩

/-- A callback that ends last sees another one that has begun. While it is about to show the job as
running, the other one ends as well and leaves the job ready. -/
theorem run_late : ∃ es, Run (cells .ready 0 0 []) es (cells .running 0 0 []) := by
  have hfirst : Run (cells .ready 0 0 []) _ (cells .running 1 1 []) := run_enter _
  have h₁ : Step (cells .running 1 1 []) .uncounted (cells .running 0 0 [.leaving]) :=
    .uncount _ (by decide)
  have h₂ : Step (cells .running 0 0 [.leaving]) .rested (cells .ready 0 0 [.checking]) :=
    .rest _ [] [] rfl
  have h₃ : Step (cells .ready 0 0 [.checking]) .counted
      (cells .ready 1 0 [.checking, .entering]) := .count _
  have h₄ : Step (cells .ready 1 0 [.checking, .entering]) .checked
      (cells .ready 1 0 [.showing, .entering]) := .check _ [] [.entering] rfl
  have h₅ : Step (cells .ready 1 0 [.showing, .entering]) .entered
      (cells .running 1 1 [.showing]) := .enter _ [.showing] [] rfl
  have h₆ : Step (cells .running 1 1 [.showing]) .uncounted
      (cells .running 0 0 [.showing, .leaving]) := .uncount _ (by decide)
  have h₇ : Step (cells .running 0 0 [.showing, .leaving]) .rested
      (cells .ready 0 0 [.showing, .checking]) := .rest _ [.showing] [] rfl
  have h₈ : Step (cells .ready 0 0 [.showing, .checking]) .checked
      (cells .ready 0 0 [.showing]) := .check _ [.showing] [] rfl
  have h₉ : Step (cells .ready 0 0 [.showing]) (.restored 0) (cells .running 0 0 []) :=
    .restore _ [] [] rfl
  exact ⟨_, hfirst.append (((((((((Course.single h₁).snoc h₂).snoc h₃).snoc h₄).snoc h₅).snoc
    h₆).snoc h₇).snoc h₈).snoc h₉)⟩

/-- Someone starts a stopped job and sees a callback. While they are about to show the job as
running, the callback ends. -/
theorem run_late_start : ∃ es, Run (cells .stopped 0 0 []) es (cells .running 0 0 []) := by
  have hfirst : Run (cells .stopped 0 0 []) _ (cells .stopped 1 1 []) := run_enter _
  have h₁ : Step (cells .stopped 1 1 []) .started (cells .ready 1 1 [.checking]) := .start _
  have h₂ : Step (cells .ready 1 1 [.checking]) .checked (cells .ready 1 1 [.showing]) :=
    .check _ [] [] rfl
  obtain ⟨es, hleave⟩ : ∃ es, Run (cells .ready 1 1 [.showing]) es
      (cells .ready 0 0 [.showing]) := run_leave _ (by decide)
  have h₃ : Step (cells .ready 0 0 [.showing]) (.restored 0) (cells .running 0 0 []) :=
    .restore _ [] [] rfl
  exact ⟨_, ((hfirst.append ((Course.single h₁).snoc h₂)).append hleave).snoc h₃⟩

/-- A job is shown as running while nothing executes and all threads are through, be it that the
last callback was late or that someone was late to start the job. -/
theorem restored_late :
    (∃ es t, Idle (cells .ready 0 0 []) ∧ Run (cells .ready 0 0 []) es t ∧ t.passing = [] ∧
      t.state.status = .running ∧ t.state.executing = 0) ∧
    ∃ es t, Idle (cells .stopped 0 0 []) ∧ Run (cells .stopped 0 0 []) es t ∧ t.passing = [] ∧
      t.state.status = .running ∧ t.state.executing = 0 := by
  obtain ⟨es, hrun⟩ := run_late
  obtain ⟨fs, hrun'⟩ := run_late_start
  exact ⟨⟨es, _, idle_cells .ready (Or.inl rfl), hrun, rfl, rfl, rfl⟩,
    fs, _, idle_cells .stopped (Or.inr rfl), hrun', rfl, rfl, rfl⟩

end Traffic

end Metronome
