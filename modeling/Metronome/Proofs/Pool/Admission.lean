import Metronome.Pool
import Metronome.Proofs.Course

/-!
# Admission to a pool

A pool decides by a few counters whether it admits a task, and tells nothing about the tasks
themselves. Here the tasks are kept beside the pool, each with what has become of it, and the pool
is driven by anyone in any order: tasks are submitted, the threads take tasks that wait, as many at
a time as there are threads, and end those that they run, the limit is changed, and the pool is
closed. Each task is taken once, since what it has come to it leaves only for what comes next.

The counters then are the numbers of the tasks that wait, that run and that have panicked, and
whether a task is admitted depends on nothing else than the tasks in flight, the limit that was set
last, and whether the pool was closed.

## Main definitions

* `Pool.HasRoom` — fewer tasks are in flight than the limit allows
* `Workshop`, `Workshop.Step`, `Workshop.Run` — a pool with its tasks, one step, and any order of
  steps
* `Workshop.Counted` — the counters are the numbers of the tasks
* `Workshop.inForce` — the limit that was set last

## Main results

* `Pool.submit_cases`, `Pool.freeSlots_pos_iff` — when a task is admitted, and when a slot is free
* `Workshop.Step.counted` — the steps keep count of the tasks
* `Workshop.Run.inFlight_le` — as long as the limit stays, the tasks in flight come no further above
  it than they were
* `Workshop.Run.admission` — what holds after any order of steps
-/

namespace Metronome

/-! ### One submission -/

namespace Pool

variable {p pool : Pool} {c : Nat}

/-- Fewer tasks are in flight than the limit allows, if there is one. -/
def HasRoom (p : Pool) : Prop := ∀ c, p.capacity = some c → p.inFlight < c

theorem capacity_eq_some_iff : p.capacity = some c ↔ 0 < c ∧ p.limit = c := by
  unfold capacity
  split
  · next hzero =>
    rw [hzero]
    simp only [reduceCtorEq, false_iff]
    omega
  · next hpos =>
    rw [Option.some.injEq]
    omega

theorem hasRoom_iff : p.HasRoom ↔ p.limit = 0 ∨ p.inFlight < p.limit := by
  simp only [HasRoom, capacity_eq_some_iff]
  constructor
  · intro h
    obtain hzero | hpos := Nat.eq_zero_or_pos p.limit
    · exact Or.inl hzero
    · exact Or.inr (h _ ⟨hpos, rfl⟩)
  · rintro (hzero | hlt) c ⟨hpos, rfl⟩
    · omega
    · exact hlt

/-- What a pool answers to a task. -/
theorem submit_cases (p : Pool) :
    p.closed = true ∧ p.submit = .error .closed ∨
    (p.closed = false ∧ p.HasRoom ∧
      p.submit = .ok { p with inFlight := p.inFlight + 1, waiting := p.waiting + 1 }) ∨
    p.closed = false ∧ ¬ p.HasRoom ∧ p.capacity = some p.limit ∧
      p.submit = .error (.full p.limit) := by
  rw [hasRoom_iff]
  unfold submit
  cases p.closed with
  | true => exact Or.inl ⟨rfl, rfl⟩
  | false =>
    right
    by_cases hroom : p.limit = 0 ∨ p.inFlight < p.limit
    · exact Or.inl ⟨rfl, hroom, if_pos hroom⟩
    · refine Or.inr ⟨rfl, hroom, capacity_eq_some_iff.mpr ⟨?_, rfl⟩, if_neg hroom⟩
      omega

theorem exists_submit_iff : (∃ pool, p.submit = .ok pool) ↔ p.closed = false ∧ p.HasRoom := by
  obtain ⟨hclosed, hsubmit⟩ | ⟨hopen, hroom, hsubmit⟩ | ⟨-, hfull, -, hsubmit⟩ := p.submit_cases
  · simp [hclosed, hsubmit]
  · simp [hopen, hroom, hsubmit]
  · simp [hfull, hsubmit]

theorem freeSlots_pos_iff : 0 < p.freeSlots ↔ p.closed = false ∧ p.HasRoom := by
  rw [hasRoom_iff]
  unfold freeSlots unlimited
  cases p.closed with
  | true => simp
  | false =>
    simp only [Bool.false_eq_true, if_false, true_and]
    split <;> omega

/-- A pool that shows a free slot admits a task. -/
theorem exists_submit (h : p.freeSlots ≠ 0) : ∃ pool, p.submit = .ok pool :=
  exists_submit_iff.mpr (freeSlots_pos_iff.mp (Nat.pos_of_ne_zero h))

/-- A pool that shows a free slot admits a task, which takes the slot. -/
theorem submit_of_free (h : p.freeSlots ≠ 0) :
    p.submit = .ok { p with inFlight := p.inFlight + 1, waiting := p.waiting + 1 } := by
  obtain ⟨hopen, hroom⟩ := freeSlots_pos_iff.mp (Nat.pos_of_ne_zero h)
  obtain ⟨hclosed, -⟩ | ⟨-, -, hsubmit⟩ | ⟨-, hfull, -⟩ := p.submit_cases
  · rw [hopen] at hclosed
    cases hclosed
  · exact hsubmit
  · exact absurd hroom hfull

/-- A task that is admitted finds the pool open and with room, and waits for a thread. -/
theorem submit_eq_ok (h : p.submit = .ok pool) : p.closed = false ∧ p.HasRoom ∧
    pool = { p with inFlight := p.inFlight + 1, waiting := p.waiting + 1 } := by
  obtain ⟨-, hsubmit⟩ | ⟨hopen, hroom, hsubmit⟩ | ⟨-, -, -, hsubmit⟩ := p.submit_cases
  · rw [hsubmit] at h
    cases h
  · rw [hsubmit] at h
    exact ⟨hopen, hroom, (Except.ok.inj h).symm⟩
  · rw [hsubmit] at h
    cases h

/-- A task is refused by a closed pool, or by an open one that is full. -/
theorem submit_eq_error {e : PoolError} (h : p.submit = .error e) :
    p.closed = true ∧ e = .closed ∨
      p.closed = false ∧ ∃ c, p.capacity = some c ∧ e = .full c := by
  obtain ⟨hclosed, hsubmit⟩ | ⟨-, -, hsubmit⟩ | ⟨hopen, -, hcapacity, hsubmit⟩ := p.submit_cases
  · rw [hsubmit] at h
    exact Or.inl ⟨hclosed, (Except.error.inj h).symm⟩
  · rw [hsubmit] at h
    cases h
  · rw [hsubmit] at h
    exact Or.inr ⟨hopen, _, hcapacity, (Except.error.inj h).symm⟩

end Pool

/-! ### A pool with its tasks -/

/-- What has become of a task that was admitted. -/
inductive TaskPhase
  | waiting
  | running
  | over (panicked : Bool)
deriving DecidableEq

/-- What is seen of a step around a pool. Tasks are numbered in the order of their admission. -/
inductive PoolEvent
  | admitted
  | refused (cause : PoolError)
  | began (task : Nat)
  | ended (task : Nat) (panicked : Bool)
  | tuned (capacity : Option Nat)
  | closed
deriving DecidableEq

namespace PoolEvent

/-- Whether the limit was changed. -/
def tunes : PoolEvent → Bool
  | .tuned _ => true
  | _ => false

/-- The limit after a step. A capacity of zero is no limit, just as none at all. -/
def capacity (before : Option Nat) : PoolEvent → Option Nat
  | .tuned capacity => capacity.filter (0 < ·)
  | _ => before

theorem capacity_of_not_tunes {e : PoolEvent} (h : e.tunes = false) (before : Option Nat) :
    e.capacity before = before := by
  cases e with
  | tuned => cases h
  | _ => rfl

end PoolEvent

/-- A pool with the tasks that it has admitted, in order. -/
structure Workshop where
  pool : Pool
  tasks : List TaskPhase := []
deriving DecidableEq

namespace Workshop

/-- A pool that was just made. -/
def opened (threads : Nat) (capacity : Option Nat) : Workshop := ⟨.new threads capacity, []⟩

/-- What happens around a pool. -/
inductive Step : Workshop → PoolEvent → Workshop → Prop
  | accept {w : Workshop} {pool : Pool} (submit : w.pool.submit = .ok pool) :
      Step w .admitted ⟨pool, w.tasks ++ [.waiting]⟩
  | refuse {w : Workshop} {cause : PoolError} (submit : w.pool.submit = .error cause) :
      Step w (.refused cause) w
  /-- A free thread takes a task that waits. -/
  | begin {w : Workshop} (task : Nat) (waits : w.tasks[task]? = some .waiting)
      (free : w.tasks.count .running < w.pool.threads) :
      Step w (.began task) ⟨w.pool.beginTask, w.tasks.set task .running⟩
  | finish {w : Workshop} (task : Nat) (panicked : Bool) (runs : w.tasks[task]? = some .running) :
      Step w (.ended task panicked) ⟨w.pool.endTask panicked, w.tasks.set task (.over panicked)⟩
  | tune {w : Workshop} (capacity : Option Nat) :
      Step w (.tuned capacity) { w with pool := w.pool.tune capacity }
  | close {w : Workshop} : Step w .closed { w with pool := w.pool.close }

/-- Any order of steps. -/
abbrev Run : Workshop → List PoolEvent → Workshop → Prop := Course Step

/-- The limit that was set last. -/
def inForce (capacity : Option Nat) (es : List PoolEvent) : Option Nat :=
  es.foldl PoolEvent.capacity (capacity.filter (0 < ·))

/-- The counters of a pool are the numbers of its tasks that wait, that run and that have panicked,
and no more tasks run than there are threads. -/
structure Counted (w : Workshop) : Prop where
  waiting : w.pool.waiting = w.tasks.count .waiting
  running : w.pool.running = w.tasks.count .running
  inFlight : w.pool.inFlight = w.pool.waiting + w.pool.running
  panics : w.pool.panics = w.tasks.count (.over true)
  threads : w.tasks.count .running ≤ w.pool.threads

variable {w w' w'' : Workshop} {e : PoolEvent} {es es' : List PoolEvent} {threads c : Nat}
  {capacity : Option Nat}

/-! ### What the counters count -/

/-- A task that passes from one phase to another is counted in the one no more, and in the other
one. -/
theorem count_set {tasks : List TaskPhase} {task : Nat} {old : TaskPhase}
    (h : tasks[task]? = some old) (new phase : TaskPhase) :
    (tasks.set task new).count phase + [old].count phase =
      tasks.count phase + [new].count phase := by
  obtain ⟨hlt, rfl⟩ := List.getElem?_eq_some_iff.mp h
  rw [List.count_set hlt, List.count_singleton, List.count_singleton]
  split
  · next heq =>
    have hpos : 0 < tasks.count phase :=
      List.count_pos_iff.mpr (beq_iff_eq.mp heq ▸ List.getElem_mem hlt)
    omega
  · omega

theorem counted_opened (threads : Nat) (capacity : Option Nat) :
    (opened threads capacity).Counted :=
  ⟨rfl, rfl, rfl, rfl, Nat.zero_le _⟩

/-- The steps keep count of the tasks. -/
theorem Step.counted (h : Step w e w') (hw : w.Counted) : w'.Counted := by
  obtain ⟨hwaiting, hrunning, hinFlight, hpanics, hthreads⟩ := hw
  cases h with
  | accept submit =>
    obtain ⟨-, -, rfl⟩ := Pool.submit_eq_ok submit
    have hcount (phase : TaskPhase) : (w.tasks ++ [TaskPhase.waiting]).count phase =
        w.tasks.count phase + [TaskPhase.waiting].count phase := List.count_append
    have hwait : (w.tasks ++ [TaskPhase.waiting]).count .waiting = w.tasks.count .waiting + 1 :=
      hcount .waiting
    have hrun : (w.tasks ++ [TaskPhase.waiting]).count .running = w.tasks.count .running :=
      hcount .running
    have hpanic : (w.tasks ++ [TaskPhase.waiting]).count (.over true) =
        w.tasks.count (.over true) := hcount (.over true)
    constructor <;> dsimp only <;> omega
  | refuse => exact ⟨hwaiting, hrunning, hinFlight, hpanics, hthreads⟩
  | begin task waits free =>
    have hcount := count_set waits .running
    have hwait : (w.tasks.set task .running).count .waiting + 1 = w.tasks.count .waiting :=
      hcount .waiting
    have hrun : (w.tasks.set task .running).count .running = w.tasks.count .running + 1 :=
      hcount .running
    have hpanic : (w.tasks.set task .running).count (.over true) = w.tasks.count (.over true) :=
      hcount (.over true)
    constructor <;> dsimp only [Pool.beginTask] <;> omega
  | finish task panicked runs =>
    have hcount := count_set runs (.over panicked)
    have hwait : (w.tasks.set task (.over panicked)).count .waiting = w.tasks.count .waiting :=
      hcount .waiting
    have hrun : (w.tasks.set task (.over panicked)).count .running + 1 = w.tasks.count .running :=
      hcount .running
    have hpanic : (w.tasks.set task (.over panicked)).count (.over true) =
        w.tasks.count (.over true) + if panicked then 1 else 0 := by
      cases panicked <;> exact hcount (.over true)
    constructor <;> dsimp only [Pool.endTask]
    case panics =>
      rw [hpanic, hpanics]
      cases panicked <;> rfl
    all_goals omega
  | tune capacity => exact ⟨hwaiting, hrunning, hinFlight, hpanics, hthreads⟩
  | close => exact ⟨hwaiting, hrunning, hinFlight, hpanics, hthreads⟩

theorem Run.counted (h : Run w es w') (hw : w.Counted) : w'.Counted :=
  Course.preserves Step.counted h hw

/-! ### The limit in force -/

theorem capacity_new (threads : Nat) (capacity : Option Nat) :
    (Pool.new threads capacity).capacity = capacity.filter (0 < ·) := by
  cases capacity with
  | none => rfl
  | some c =>
    cases c with
    | zero => rfl
    | succ c => rfl

/-- A step leaves the limit as it is, unless it sets another one. -/
theorem Step.capacity_eq (h : Step w e w') : w'.pool.capacity = e.capacity w.pool.capacity := by
  cases h with
  | accept submit =>
    obtain ⟨-, -, rfl⟩ := Pool.submit_eq_ok submit
    rfl
  | tune capacity => exact capacity_new 1 capacity
  | _ => rfl

/-- A step leaves a pool open or closed, unless it closes it. -/
theorem Step.closed_iff (h : Step w e w') :
    w'.pool.closed = true ↔ w.pool.closed = true ∨ .closed = e := by
  cases h with
  | accept submit =>
    obtain ⟨-, -, rfl⟩ := Pool.submit_eq_ok submit
    simp
  | close => simp [Pool.close]
  | _ => simp [Pool.beginTask, Pool.endTask, Pool.tune]

theorem Step.threads_eq (h : Step w e w') : w'.pool.threads = w.pool.threads := by
  cases h with
  | accept submit =>
    obtain ⟨-, -, rfl⟩ := Pool.submit_eq_ok submit
    rfl
  | _ => rfl

theorem Run.threads_eq (h : Run w es w') : w'.pool.threads = w.pool.threads := by
  induction h with
  | refl => rfl
  | snoc _ hstep ih => exact hstep.threads_eq.trans ih

theorem Run.capacity_eq (h : Run w es w') :
    w'.pool.capacity = es.foldl PoolEvent.capacity w.pool.capacity := by
  induction h with
  | refl => rfl
  | snoc _ hstep ih =>
    rw [List.foldl_append, ← ih, hstep.capacity_eq]
    rfl

theorem Run.closed_iff (h : Run w es w') :
    w'.pool.closed = true ↔ w.pool.closed = true ∨ .closed ∈ es := by
  induction h with
  | refl => simp
  | snoc _ hstep ih => rw [hstep.closed_iff, ih, List.mem_append, List.mem_singleton, or_assoc]

/-! ### The tasks in flight -/

/-- No step makes the tasks in flight more, except for the admission of one where there is room. -/
theorem Step.inFlight_le (h : Step w e w') :
    w'.pool.inFlight ≤ w.pool.inFlight ∨
      w'.pool.inFlight = w.pool.inFlight + 1 ∧ w.pool.HasRoom := by
  cases h with
  | accept submit =>
    obtain ⟨-, hroom, rfl⟩ := Pool.submit_eq_ok submit
    exact Or.inr ⟨rfl, hroom⟩
  | finish task panicked runs =>
    left
    dsimp only [Pool.endTask]
    omega
  | _ => exact Or.inl (Int.le_refl _)

/-- Where there is no room, no step makes the tasks in flight more. -/
theorem Step.inFlight_le_of_full (h : Step w e w') (hcapacity : w.pool.capacity = some c)
    (hfull : c ≤ w.pool.inFlight) : w'.pool.inFlight ≤ w.pool.inFlight := by
  obtain hle | ⟨-, hroom⟩ := h.inFlight_le
  · exact hle
  · have := hroom c hcapacity
    omega

/-- As long as the limit is not changed, the tasks in flight stay up to any bound that is not below
the limit. -/
theorem Run.inFlight_le (h : Run w es w') (huntuned : ∀ e ∈ es, e.tunes = false) {bound : Int}
    (hcapacity : w.pool.capacity = some c) (hc : c ≤ bound) (hw : w.pool.inFlight ≤ bound) :
    w'.pool.capacity = some c ∧ w'.pool.inFlight ≤ bound := by
  induction h with
  | refl => exact ⟨hcapacity, hw⟩
  | @snoc v v' es e _ hstep ih =>
    obtain ⟨hbefore, hle⟩ := ih fun e he => huntuned e (List.mem_append_left _ he)
    have hsame := PoolEvent.capacity_of_not_tunes (huntuned e List.mem_concat_self) (some c)
    refine ⟨by rw [hstep.capacity_eq, hbefore, hsame], ?_⟩
    obtain hle' | ⟨heq, hroom⟩ := hstep.inFlight_le
    · omega
    · have := hroom c hbefore
      omega

/-! ### Any order of steps -/

/-- After any order of steps, the counters are the numbers of the tasks that wait, run and have
panicked, the tasks in flight are those that wait or run, and no counter is negative. A task is
admitted exactly if the pool was not closed and the limit that was set last, if any, is greater than
the tasks in flight; this is what the free slots say, and a task that is not admitted learns whether
the pool is closed, or the limit that it has met. A task that ends frees its slot, and a panic is
counted once; a task that is refused changes nothing. As long as the limit was never changed, the
tasks in flight are not more than it allows. A limit that is set below them keeps them from becoming
more than they were, and no step adds to them until they are fewer than it. -/
theorem Run.admission (h : Run (opened threads capacity) es w) :
    w.Counted ∧ (0 ≤ w.pool.waiting ∧ 0 ≤ w.pool.running ∧ 0 ≤ w.pool.inFlight) ∧
    w.pool.capacity = inForce capacity es ∧
    ((∃ pool, w.pool.submit = .ok pool) ↔
      .closed ∉ es ∧ ∀ c, inForce capacity es = some c → w.pool.inFlight < c) ∧
    (0 < w.pool.freeSlots ↔ ∃ pool, w.pool.submit = .ok pool) ∧
    (∀ cause, w.pool.submit = .error cause →
      .closed ∈ es ∧ cause = .closed ∨
        .closed ∉ es ∧ ∃ c, inForce capacity es = some c ∧ cause = .full c) ∧
    (∀ task panicked w', Step w (.ended task panicked) w' →
      w'.pool.inFlight = w.pool.inFlight - 1 ∧
        w'.pool.panics = w.pool.panics + if panicked then 1 else 0) ∧
    (∀ cause w', Step w (.refused cause) w' → w' = w) ∧
    ((∀ e ∈ es, e.tunes = false) → ∀ c, inForce capacity [] = some c → w.pool.inFlight ≤ c) ∧
    ∀ c : Nat, 0 < c → c ≤ w.pool.inFlight → ∀ w₁, Step w (.tuned (some c)) w₁ →
      ∀ es' w', Run w₁ es' w' → (∀ e ∈ es', e.tunes = false) →
        w'.pool.inFlight ≤ w.pool.inFlight ∧
        (c ≤ w'.pool.inFlight → ∀ e w'', Step w' e w'' → w''.pool.inFlight ≤ w'.pool.inFlight) := by
  have hcounted := h.counted (counted_opened threads capacity)
  have hcapacity : w.pool.capacity = inForce capacity es := by
    rw [h.capacity_eq, opened, capacity_new, inForce]
  have hclosed : w.pool.closed = true ↔ .closed ∈ es := by
    rw [h.closed_iff]
    simp [opened, Pool.new]
  have hopen : w.pool.closed = false ↔ .closed ∉ es := by rw [← hclosed, Bool.not_eq_true]
  obtain ⟨hwaiting, hrunning, hinFlight, -, -⟩ := id hcounted
  refine ⟨hcounted, ⟨by omega, by omega, by omega⟩, hcapacity, ?_, ?_, ?_, ?_, ?_, ?_, ?_⟩
  · rw [Pool.exists_submit_iff, hopen, Pool.HasRoom, hcapacity]
  · rw [Pool.exists_submit_iff, Pool.freeSlots_pos_iff]
  · intro cause hsubmit
    rw [← hopen, ← hclosed, ← hcapacity]
    exact Pool.submit_eq_error hsubmit
  · intro task panicked w' hstep
    cases hstep with
    | finish =>
      refine ⟨rfl, ?_⟩
      cases panicked <;> rfl
  · intro cause w' hstep
    cases hstep with
    | refuse => rfl
  · intro huntuned c hc
    refine (h.inFlight_le huntuned ?_ (Int.le_refl _) (Int.natCast_nonneg c)).2
    rw [opened, capacity_new]
    exact hc
  · intro c hpos hle w₁ htune es' w' hrun huntuned
    have hset : w₁.pool.capacity = some c := by
      rw [htune.capacity_eq, PoolEvent.capacity, Option.filter_some, if_pos (decide_eq_true hpos)]
    have hstart : w₁.pool.inFlight = w.pool.inFlight := by
      cases htune with
      | tune => rfl
    obtain ⟨hkept, hbound⟩ := hrun.inFlight_le huntuned hset hle (Int.le_of_eq hstart)
    exact ⟨hbound, fun hfull e w'' hstep => hstep.inFlight_le_of_full hkept hfull⟩

/-- A pool of one thread with two tasks, as many as it may have, after a third one was refused. -/
def crowded : Workshop :=
  ⟨{ threads := 1, limit := 2, inFlight := 2, running := 1, waiting := 1 }, [.running, .waiting]⟩

/-- The limit is lowered below the tasks in flight. -/
def narrowed : Workshop := ⟨{ crowded.pool with limit := 1 }, crowded.tasks⟩

/-- The task that has run has panicked, and the pool is still full. -/
def relieved : Workshop :=
  ⟨{ threads := 1, limit := 1, inFlight := 1, running := 0, waiting := 1, panics := 1 },
    [.over true, .waiting]⟩

theorem run_crowded : Run (opened 1 (some 2))
    [.admitted, .admitted, .refused (.full 2), .began 0] crowded := by
  have hfirst : Run (opened 1 (some 2)) [.admitted] ⟨_, [.waiting]⟩ := .single (.accept rfl)
  have hsecond := hfirst.snoc (.accept rfl)
  exact (hsecond.snoc (.refuse rfl)).snoc (.begin 0 rfl (by decide))

/-- The pool stays as full as it is after the limit was lowered, and no step lets a task in when the
panic has freed one slot. -/
theorem admission_crowded :
    Run (opened 1 (some 2)) [.admitted, .admitted, .refused (.full 2), .began 0] crowded ∧
    Step crowded (.tuned (some 1)) narrowed ∧ Run narrowed [.ended 0 true] relieved ∧
    crowded.pool.freeSlots = 0 ∧ (¬ ∃ pool, crowded.pool.submit = .ok pool) ∧
    ∀ e w, Step relieved e w → w.pool.inFlight ≤ 1 := by
  have htune : Step crowded (.tuned (some 1)) narrowed := .tune (some 1)
  have hpanic : Run narrowed [.ended 0 true] relieved := .single (.finish 0 true rfl)
  have hfree : crowded.pool.freeSlots = 0 := by decide
  obtain ⟨-, -, -, -, hslots, -, -, -, -, hnarrow⟩ := run_crowded.admission
  obtain ⟨-, hstay⟩ :=
    hnarrow 1 (by decide) (by decide) narrowed htune _ relieved hpanic (by decide)
  refine ⟨run_crowded, htune, hpanic, hfree, ?_, hstay (by decide)⟩
  rw [← hslots, hfree]
  exact Nat.lt_irrefl 0

end Workshop

end Metronome
