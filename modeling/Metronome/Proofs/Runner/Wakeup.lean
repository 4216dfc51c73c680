import Metronome.Proofs.Runner.Bookkeeping

/-!
# Wake-ups of the dispatch thread

The dispatch thread goes on as long as the line is not empty and the pool has room, and then sleeps
until it gets a signal. Signals go through a channel that holds one of them at most, so that two of
them may count as one. A trigger signals after it was counted, and so does a completed run; but a
completed run frees its place in the pool only after its signal, and freeing a place gives none.

While the dispatch thread sleeps and no signal is on its way, then, the line is empty or the pool is
full, or a place has become free meanwhile. The last case cannot be left out: the dispatch thread
may be up again before the completed run has left the pool, and spend its signal on a full pool.

## Main definitions

* `Watch` — a shift with the channel and with the signals that are owed
* `Watch.Step`, `Watch.Run` — the steps of the dispatch thread and of the threads around it
* `Watch.Wakeful` — what makes the dispatch thread wake up, or lets it sleep

## Main results

* `Watch.Step.wakeful` — the steps keep it
* `Watch.Reachable.wakeup` — a sleeping dispatch thread without a signal
* `Watch.signal_spent` — the line is not empty, the pool has room, and no signal is to come
-/

namespace Metronome

/-! ### Places in the pool -/

namespace Pool

/-- A task that ends frees a place. -/
theorem freeSlots_endTask (p : Pool) (panicked : Bool) :
    p.freeSlots ≤ (p.endTask panicked).freeSlots := by
  unfold freeSlots endTask
  dsimp only
  split
  · exact Nat.le_refl _
  · split
    · exact Nat.le_refl _
    · omega

theorem freeSlots_tune {p : Pool} {capacity : Option Nat} (h : (p.tune capacity).limit = p.limit) :
    (p.tune capacity).freeSlots = p.freeSlots := by
  unfold freeSlots
  rw [h]
  rfl

end Pool

namespace Runner

theorem pool_enqueue (r : Runner) (id : JobId) : (r.enqueue id).2.pool = r.pool := by
  cases hst : r.roster.state? id with
  | none => rw [enqueue_none hst]
  | some st =>
    obtain ⟨-, -, heq⟩ | ⟨-, -, -, heq⟩ | ⟨-, heq⟩ := enqueue_cases hst <;> rw [heq] <;> rfl

theorem Popped.next_ne_ready (p : Popped) : p.next ≠ .ready := by cases p <;> nofun

theorem pool_complete (r : Runner) (id : JobId) : (r.complete id).pool = r.pool := by
  unfold complete
  dsimp only
  split
  · rfl
  · split <;> rfl

end Runner

/-! ### Signals that are owed -/

/-- Whether a trigger was counted. -/
def Event.isQueued : Event → Bool
  | .answered _ .queued => true
  | _ => false

/-- Whether a run was completed. -/
def Event.isCompleted : Event → Bool
  | .completed _ => true
  | _ => false

/-- Whether the dispatch thread goes to sleep after a step: the line was empty, or the pool has
refused a run. -/
def Dispatcher.pauses : Dispatcher → Event → Bool
  | .ready, .quiet | .refused _ _, _ => true
  | _, _ => false

namespace Shift

variable {s t : Shift} {e : Event}

/-- Neither the dispatch thread nor the limit of the pool is touched, and the runner is not
closed. -/
structure Aside (s t : Shift) : Prop where
  dispatcher : t.dispatcher = s.dispatcher
  limit : t.runner.pool.limit = s.runner.pool.limit
  closed : t.runner.closed = s.runner.closed
  closing : t.closing = s.closing

/-- A job comes into line by a trigger that was counted or by a run that was completed. -/
theorem Step.order_eq (h : Step s e t) (hst : Aside s t) :
    e.isQueued = true ∨ e.isCompleted = true ∨
      t.runner.line.order = s.runner.line.order := by
  cases h with
  | enqueue id =>
    cases hst : s.runner.roster.state? id with
    | none =>
      rw [withRunner, Runner.enqueue_none hst]
      exact Or.inr (Or.inr rfl)
    | some st =>
      obtain ⟨-, -, heq⟩ | ⟨-, -, -, heq⟩ | ⟨-, heq⟩ := Runner.enqueue_cases hst
      · rw [withRunner, heq]
        exact Or.inr (Or.inr rfl)
      · rw [heq]
        exact Or.inl rfl
      · rw [heq]
        exact Or.inl rfl
  | complete => exact Or.inr (Or.inl rfl)
  | pop ready => exact absurd (hst.dispatcher.trans ready) (Runner.Popped.next_ne_ready _)
  | takeBack id cause refused => cases hst.dispatcher.trans refused
  | clear closing => cases hst.closing.trans closing
  | _ => exact Or.inr (Or.inr rfl)

/-- A place becomes free only when a completed run leaves, and none is taken. -/
theorem Step.freeSlots_le (h : Step s e t) (hst : Aside s t) :
    s.runner.pool.freeSlots ≤ t.runner.pool.freeSlots ∧
      (t.leaving.length < s.leaving.length ∨
        t.runner.pool.freeSlots = s.runner.pool.freeSlots) := by
  have hsame (hpool : t.runner.pool = s.runner.pool) :
      s.runner.pool.freeSlots ≤ t.runner.pool.freeSlots ∧
        (t.leaving.length < s.leaving.length ∨
          t.runner.pool.freeSlots = s.runner.pool.freeSlots) := by
    rw [hpool]
    exact ⟨Nat.le_refl _, Or.inr rfl⟩
  cases h with
  | enqueue id => exact hsame (s.runner.pool_enqueue id)
  | complete before task => exact hsame (s.runner.pool_complete task.id)
  | leave before panicked after leaving =>
    refine ⟨Pool.freeSlots_endTask _ _, Or.inl ?_⟩
    rw [leaving, List.length_append, List.length_append, List.length_cons]
    exact Nat.lt_succ_self _
  | tune capacity =>
    have hslots := Pool.freeSlots_tune hst.limit
    exact ⟨Nat.le_of_eq hslots.symm, Or.inr hslots⟩
  | begin => exact ⟨Nat.le_refl _, Or.inr rfl⟩
  | pop ready => exact absurd (hst.dispatcher.trans ready) (Runner.Popped.next_ne_ready _)
  | grant id pool holding => cases hst.dispatcher.trans holding
  | takeBack id cause refused => cases hst.dispatcher.trans refused
  | clear closing => cases hst.closing.trans closing
  | _ => exact hsame rfl

end Shift

/-! ### Watches -/

/-- A shift with the channel through which its dispatch thread is woken. -/
structure Watch where
  shift : Shift
  /-- A signal is in the channel. -/
  signal : Bool := false
  /-- The dispatch thread waits for a signal. -/
  asleep : Bool := false
  /-- Triggers that are counted and have not signalled. -/
  counted : Nat := 0
  /-- Runs that are completed and have not signalled. -/
  ended : Nat := 0
  /-- A place in the pool has become free since the dispatch thread went to sleep. -/
  freed : Bool := false

namespace Watch

/-- The jobs in line. -/
abbrev order (w : Watch) : List JobId := w.shift.runner.line.order

/-- The room in the pool. -/
abbrev freeSlots (w : Watch) : Nat := w.shift.runner.pool.freeSlots

/-- What one thread does without being interrupted, as long as the limit of the pool is left alone
and the runner is not closed. -/
inductive Step : Watch → Event → Watch → Prop
  /-- A thread besides the dispatch thread takes a step. A completed run signals before it leaves
  the pool. -/
  | aside (w : Watch) {e : Event} {t : Shift} (step : Shift.Step w.shift e t)
      (aside : Shift.Aside w.shift t)
      (signalled : w.ended + e.isCompleted.toNat ≤ t.leaving.length) :
      Step w e
        { w with
          shift := t
          counted := w.counted + e.isQueued.toNat
          ended := w.ended + e.isCompleted.toNat
          freed := w.freed || decide (t.leaving.length < w.shift.leaving.length) }
  /-- A trigger that was counted signals. -/
  | signalCounted (w : Watch) (counted : 0 < w.counted) :
      Step w .quiet { w with signal := true, counted := w.counted - 1 }
  /-- A run that was completed signals. -/
  | signalEnded (w : Watch) (ended : 0 < w.ended) :
      Step w .quiet { w with signal := true, ended := w.ended - 1 }
  /-- The dispatch thread takes a step. -/
  | dispatch (w : Watch) {e : Event} {t : Shift} (awake : w.asleep = false)
      (step : Shift.Step w.shift e t) (moved : t.dispatcher ≠ w.shift.dispatcher) :
      Step w e
        { w with
          shift := t
          asleep := w.shift.dispatcher.pauses e
          freed := w.freed && !w.shift.dispatcher.pauses e }
  /-- The dispatch thread finds the pool full and goes to sleep. -/
  | doze (w : Watch) (awake : w.asleep = false) (idle : w.shift.dispatcher = .idle)
      (full : w.freeSlots = 0) : Step w .quiet { w with asleep := true, freed := false }
  /-- The dispatch thread takes the signal out of the channel. -/
  | wake (w : Watch) (asleep : w.asleep = true) (signal : w.signal = true) :
      Step w .quiet { w with asleep := false, signal := false }
  /-- The dispatch thread has slept for the longest time. -/
  | timeout (w : Watch) (asleep : w.asleep = true) : Step w .quiet { w with asleep := false }

/-- An interleaving of steps. -/
abbrev Run : Watch → List Event → Watch → Prop := Course Step

/-- A state that a runner can come to. -/
def Reachable (w : Watch) : Prop := ∃ s es, Shift.Fresh s ∧ Run { shift := s } es w

/-- The dispatch thread finds room whenever it offers a run, and it sleeps only if there is nothing
for it to do or if it will be woken, unless a place has become free meanwhile. -/
structure Wakeful (w : Watch) : Prop where
  room : w.shift.dispatcher = .ready ∨ (∃ id, w.shift.dispatcher = .holding id) → w.freeSlots ≠ 0
  unrefused : ∀ id cause, w.shift.dispatcher ≠ .refused id cause
  idle : w.asleep = true → w.shift.dispatcher = .idle
  sleep : w.asleep = true →
    w.order = [] ∨ w.freeSlots = 0 ∨ w.signal = true ∨ 0 < w.counted ∨ 0 < w.ended ∨ w.freed = true

variable {w v : Watch} {e : Event} {es : List Event} {t : Shift}

theorem Wakeful.aside (hw : w.Wakeful) (h : Shift.Step w.shift e t)
    (aside : Shift.Aside w.shift t) :
    Wakeful
      { w with
        shift := t
        counted := w.counted + e.isQueued.toNat
        ended := w.ended + e.isCompleted.toNat
        freed := w.freed || decide (t.leaving.length < w.shift.leaving.length) } := by
  obtain ⟨hle, hslots⟩ := h.freeSlots_le aside
  constructor
  · rw [aside.dispatcher]
    exact fun hd => Nat.ne_of_gt (Nat.lt_of_lt_of_le (Nat.pos_of_ne_zero (hw.room hd)) hle)
  · rw [aside.dispatcher]
    exact hw.unrefused
  · rw [aside.dispatcher]
    exact hw.idle
  · intro asleep
    have horder := h.order_eq aside
    obtain hempty | hfull | hsignal | hcounted | hended | hfreed := hw.sleep asleep
    -- whoever brings a job into the empty line owes a signal
    · obtain hqueued | hcompleted | hsame := horder
      · simp [hqueued]
      · simp [hcompleted]
      · exact Or.inl (hsame.trans hempty)
    -- a place in a full pool becomes free without any signal
    · obtain hleft | hsame := hslots
      · simp [hleft]
      · exact Or.inr (Or.inl (hsame.trans hfull))
    · simp [hsignal]
    · exact Or.inr (Or.inr (Or.inr (Or.inl (Nat.add_pos_left hcounted _))))
    · exact Or.inr (Or.inr (Or.inr (Or.inr (Or.inl (Nat.add_pos_left hended _)))))
    · simp [hfreed]

/-- A dispatch thread that is up need not be woken. -/
theorem Wakeful.of_awake (awake : w.asleep = false)
    (room : w.shift.dispatcher = .ready ∨ (∃ id, w.shift.dispatcher = .holding id) →
      w.freeSlots ≠ 0)
    (unrefused : ∀ id cause, w.shift.dispatcher ≠ .refused id cause) : w.Wakeful :=
  ⟨room, unrefused, fun h => absurd (awake.symm.trans h) nofun,
    fun h => absurd (awake.symm.trans h) nofun⟩

theorem Wakeful.dispatch (hw : w.Wakeful) (h : Shift.Step w.shift e t)
    (moved : t.dispatcher ≠ w.shift.dispatcher) :
    Wakeful
      { w with
        shift := t
        asleep := w.shift.dispatcher.pauses e
        freed := w.freed && !w.shift.dispatcher.pauses e } := by
  cases h with
  | look idle room => exact .of_awake (by rw [idle]; rfl) (fun _ => room) nofun
  | pop ready =>
    cases hpop : w.shift.runner.pop.1 with
    | nothing =>
      have hempty : w.shift.runner.pop.2.line.order = [] := by
        rw [Runner.pop_of_nothing hpop]
        exact Runner.pop_eq_nothing_iff.mp hpop
      exact ⟨nofun, nofun, fun _ => rfl, fun _ => Or.inl hempty⟩
    | dropped id => exact .of_awake (by rw [ready]; rfl) nofun nofun
    | taken id =>
      have hroom := hw.room (Or.inl ready)
      rw [freeSlots, ← w.shift.runner.pool_pop] at hroom
      exact .of_awake (by rw [ready]; rfl) (fun _ => hroom) nofun
  | grant id pool holding => exact .of_awake (by rw [holding]; rfl) nofun nofun
  | refuse id cause holding full =>
    -- only the dispatch thread takes places, so that the room it has seen is still there
    obtain ⟨pool, hpool⟩ := Pool.exists_submit (hw.room (Or.inr ⟨id, holding⟩))
    cases hpool.symm.trans full
  | takeBack id cause refused => exact absurd refused (hw.unrefused id cause)
  | _ => exact absurd rfl moved

theorem Step.wakeful (h : Step w e v) (hw : w.Wakeful) : v.Wakeful := by
  cases h with
  | aside step aside => exact hw.aside step aside
  | signalCounted => exact { hw with sleep := fun _ => Or.inr (Or.inr (Or.inl rfl)) }
  | signalEnded => exact { hw with sleep := fun _ => Or.inr (Or.inr (Or.inl rfl)) }
  | dispatch awake step moved => exact hw.dispatch step moved
  | doze awake idle full =>
    exact { hw with idle := fun _ => idle, sleep := fun _ => Or.inr (Or.inl full) }
  | wake => exact .of_awake rfl hw.room hw.unrefused
  | timeout => exact .of_awake rfl hw.room hw.unrefused

theorem Reachable.wakeful (h : Reachable w) : w.Wakeful := by
  obtain ⟨s, es, hfresh, hrun⟩ := h
  refine hrun.preserves (fun hstep hw => hstep.wakeful hw) (.of_awake rfl ?_ ?_)
  · rw [hfresh.dispatcher]
    exact nofun
  · rw [hfresh.dispatcher]
    exact nofun

/-- While the dispatch thread sleeps and no signal is in the channel or owed, the line is empty or
the pool is full, or else a place has become free since it went to sleep. -/
theorem Reachable.wakeup (h : Reachable w) (asleep : w.asleep = true) (silent : w.signal = false)
    (counted : w.counted = 0) (ended : w.ended = 0) :
    w.order = [] ∨ w.freeSlots = 0 ∨ w.freed = true := by
  obtain hempty | hfull | hsignal | hcounted | hended | hfreed := h.wakeful.sleep asleep
  · exact Or.inl hempty
  · exact Or.inr (Or.inl hfull)
  · cases silent.symm.trans hsignal
  · exact absurd hcounted (by rw [counted]; decide)
  · exact absurd hended (by rw [ended]; decide)
  · exact Or.inr (Or.inr hfreed)

/-! ### A signal that is spent too early -/

/-- A runner with one job and one place in its pool. -/
def narrow : Shift := (Shift.ofJobs #[default] 1).withPool (.new 1 (some 1))

/-- The job was triggered twice. -/
def triggered : Shift := narrow.withRunner ((narrow.runner.enqueue 0).2.enqueue 0).2

/-- The pool with its one place taken. -/
def taken : Pool := { Pool.new 1 (some 1) with inFlight := 1, waiting := 1 }

/-- The first run has taken the place. -/
def crowded : Shift :=
  { triggered with crew := { triggered.crew with
      runner := triggered.runner.pop.2.grant taken
      waiting := [0] } }

/-- The run of the job on its thread. -/
def begunTask : Task :=
  (crowded.crew.runTask ⟨0, { clock := crowded.crew.clock }⟩ fun x j => x.begin j).1

/-- The run has called the callback. -/
def called : Crew := (crowded.crew.startTask [] 0 []).moveTask [] begunTask [] 1

/-- The run is completed and has yet to leave the pool. -/
def completed : Shift :=
  { crowded with
    leaving := [false]
    crew := { called with runner := called.runner.complete 0, active := [] } }

theorem fresh_narrow : Shift.Fresh narrow := by
  have hfresh : Shift.Fresh (Shift.ofJobs #[default] 1) := by
    refine Shift.fresh_ofJobs fun j hj => ?_
    rw [List.mem_toArray, List.mem_singleton] at hj
    rw [hj]
    exact ⟨rfl, rfl⟩
  exact { hfresh with }

/-- The two triggers come in. -/
theorem run_triggered : Run { shift := narrow }
    [.quiet, .quiet, .answered 0 .queued, .answered 0 .queued]
    { shift := triggered, counted := 2 } := by
  let one : Shift := { narrow with checked := [0] }
  let two : Shift := { narrow with checked := [0, 0] }
  let counted : Shift := { narrow.withRunner (narrow.runner.enqueue 0).2 with checked := [0] }
  have hcheck : Shift.Step narrow .quiet one := .check narrow 0 rfl
  have hcheck' : Shift.Step one .quiet two := .check one 0 rfl
  have henqueue : Shift.Step two (.answered 0 .queued) counted := .enqueue two 0 (by decide)
  have henqueue' : Shift.Step counted (.answered 0 .queued) triggered :=
    .enqueue counted 0 (by decide)
  have h₁ : Step { shift := narrow } .quiet { shift := one } :=
    .aside _ hcheck ⟨rfl, rfl, rfl, rfl⟩ (by decide)
  have h₂ : Step { shift := one } .quiet { shift := two } :=
    .aside _ hcheck' ⟨rfl, rfl, rfl, rfl⟩ (by decide)
  have h₃ : Step { shift := two } (.answered 0 .queued) { shift := counted, counted := 1 } :=
    .aside _ henqueue ⟨rfl, rfl, rfl, rfl⟩ (by decide)
  have h₄ : Step { shift := counted, counted := 1 } (.answered 0 .queued)
      { shift := triggered, counted := 2 } :=
    .aside _ henqueue' ⟨rfl, rfl, rfl, rfl⟩ (by decide)
  exact (((Course.single h₁).snoc h₂).snoc h₃).snoc h₄

/-- The dispatch thread hands the job to the pool, whose one place is taken then. -/
theorem run_crowded : Run { shift := triggered, counted := 2 }
    [.quiet, .taken 0, .admitted 0] { shift := crowded, counted := 2 } := by
  let ready : Shift := { triggered with dispatcher := .ready }
  let held : Shift := { triggered.withRunner triggered.runner.pop.2 with dispatcher := .holding 0 }
  have hlook : Shift.Step triggered .quiet ready := .look triggered rfl (by decide +kernel) rfl
  have htake : Shift.Step ready (.taken 0) held := by
    have htaken : triggered.runner.pop.1 = .taken 0 := by decide +kernel
    have hstep := Shift.Step.pop ready rfl
    rw [show ready.runner.pop.1 = .taken 0 from htaken] at hstep
    exact hstep
  have hgrant : Shift.Step held (.admitted 0) crowded := by
    have hpool : held.runner.pool = .new 1 (some 1) := by decide +kernel
    exact .grant held 0 _ rfl (by rw [hpool]; rfl)
  have h₁ : Step { shift := triggered, counted := 2 } .quiet { shift := ready, counted := 2 } :=
    .dispatch _ rfl hlook nofun
  have h₂ : Step { shift := ready, counted := 2 } (.taken 0) { shift := held, counted := 2 } :=
    .dispatch _ rfl htake nofun
  have h₃ : Step { shift := held, counted := 2 } (.admitted 0) { shift := crowded, counted := 2 } :=
    .dispatch _ rfl hgrant nofun
  exact ((Course.single h₁).snoc h₂).snoc h₃

/-- The callback is called and comes to its end, and the run is completed. -/
theorem run_completed : Run { shift := crowded, counted := 2 }
    [.begun 0, .quiet, .completed 0] { shift := completed, counted := 2, ended := 1 } := by
  let begun : Shift := { crowded with crew := crowded.crew.startTask [] 0 [] }
  let last : Task := (begun.crew.runTask begunTask fun x j => x.proceed j 1).1
  have hbegin : Shift.Step crowded (.begun 0) begun :=
    .begin crowded [] 0 [] rfl (by decide +kernel)
  have hcall : Shift.Step begun .quiet { crowded with crew := called } :=
    .advance begun [] begunTask [] 1 rfl
  have hcomplete : Shift.Step { crowded with crew := called } (.completed 0) completed := by
    have hescaped : last.execution.escaped.isSome = false := by decide +kernel
    have hstep := Shift.Step.complete { crowded with crew := called } [] last [] rfl
      (by decide +kernel)
    rw [hescaped] at hstep
    exact hstep
  have h₁ : Step { shift := crowded, counted := 2 } (.begun 0) { shift := begun, counted := 2 } :=
    .aside _ hbegin ⟨rfl, rfl, rfl, rfl⟩ (by decide)
  have h₂ : Step { shift := begun, counted := 2 } .quiet
      { shift := { crowded with crew := called }, counted := 2 } :=
    .aside _ hcall ⟨rfl, rfl, rfl, rfl⟩ (by decide)
  have h₃ : Step { shift := { crowded with crew := called }, counted := 2 } (.completed 0)
      { shift := completed, counted := 2, ended := 1 } :=
    .aside _ hcomplete ⟨rfl, by decide +kernel, by decide +kernel, rfl⟩ (by decide)
  exact ((Course.single h₁).snoc h₂).snoc h₃

/-- All signals are given; the dispatch thread sleeps, takes the one in the channel, and sleeps
again, since the completed run is still in the pool. -/
theorem run_spent : Run { shift := completed, counted := 2, ended := 1 }
    [.quiet, .quiet, .quiet, .quiet, .quiet, .quiet] { shift := completed, asleep := true } :=
  have hfull : completed.runner.pool.freeSlots = 0 := by decide +kernel
  (((((Course.single (.signalCounted _ (by decide))).snoc (.signalCounted _ (by decide))).snoc
    (.signalEnded _ (by decide))).snoc (.doze _ rfl rfl hfull)).snoc (.wake _ rfl rfl)).snoc
      (.doze _ rfl rfl hfull)

theorem reachable_spent : Reachable { shift := completed, asleep := true } :=
  ⟨narrow, _, fresh_narrow,
    ((run_triggered.append run_crowded).append run_completed).append run_spent⟩

/-- A dispatch thread that sleeps in front of a full pool. -/
theorem wakeup_spent : Reachable { shift := completed, asleep := true } ∧
    (completed.runner.line.order = [] ∨ completed.runner.pool.freeSlots = 0 ∨ false = true) :=
  ⟨reachable_spent, Reachable.wakeup reachable_spent rfl rfl rfl rfl⟩

/-- A completed run signals before it leaves the pool, so that the dispatch thread may spend the
signal on a full pool. When the run has left, the dispatch thread sleeps on: a job stands in line,
there is a place for it, and no signal is in the channel or owed. -/
theorem signal_spent : ∃ w, Reachable w ∧ w.asleep = true ∧ w.signal = false ∧ w.counted = 0 ∧
    w.ended = 0 ∧ w.order = [0] ∧ w.freeSlots = 1 := by
  have hleave := Shift.Step.leave completed [] false [] rfl
  obtain ⟨s, es, hfresh, hrun⟩ := reachable_spent
  refine ⟨_, ⟨s, _, hfresh, hrun.snoc (.aside _ hleave ⟨rfl, rfl, rfl, rfl⟩ (by decide))⟩, rfl, rfl,
    rfl, rfl, ?_, ?_⟩
  · decide +kernel
  · decide +kernel

end Watch

end Metronome
