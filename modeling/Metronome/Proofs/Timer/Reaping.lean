import Metronome.Proofs.Runner.Updates
import Metronome.Proofs.Timer.Exhaustion

/-!
# Closed jobs leave the queue

A job that is closed stays in the queue until the next tick, wherever it is there. Whoever closes a
job first changes its status and then raises a flag; the tick thread first lowers the flag and then,
if it was up, clears all closed jobs out of the queue. It is the order of these four accesses that
matters: if a job was closed too late to be cleared out, the flag is raised after it was lowered,
and the next tick will look again. This holds for a job, too, that was closed while the tick thread
had it in its hand, and that went back into the queue after that.

A cleanup is a timer with all its threads in which others may take their steps between these
accesses. Nobody has got hold of a job before it is in the queue.

## Main definitions

* `Cleanup` — a timer whose threads may be in the middle of a closing or of a clearing
* `Cleanup.Step`, `Cleanup.Run` — one step, and any interleaving
* `Cleanup.Watched` — every closed job in the queue will be looked for
* `Cleanup.Passing` — a job is on its way out of the queue

## Main results

* `Plant.purged_lookUp` — what the tick thread does at the beginning of a tick, in two steps
* `Cleanup.Step.watched`, `Cleanup.Step.passing` — one step
* `Cleanup.Run.reaping` — the flag, and what a tick leaves in the queue
-/

namespace Metronome

/-- What the tick thread is about to do when it has looked at the flag. -/
structure Purge where
  tick : Tick
  now : Instant
  /-- The flag was up. -/
  asked : Bool
deriving DecidableEq

namespace Plant

variable {p q : Plant} {id : JobId} {o : Occasion}

/-- The timer with its flag raised or lowered. -/
def withFlag (p : Plant) (flag : Bool) : Plant := p.withRoster { p.roster with reap := flag }

/-- The tick counter has gone up, and the flag was lowered. -/
def lookUp (p : Plant) (tick : Tick) : Plant :=
  let p := p.withFlag false
  { p with timer := { p.timer with ticks := tick } }

/-- Closed jobs are cleared out if the flag was up, and it is seen whether any job is to be
visited. -/
def purged (p : Plant) (w : Purge) : Plant :=
  let t := if w.asked then p.timer.reapClosed.2 else p.timer
  { p with
    timer := t
    ticker :=
      if w.tick < t.queue.nextPriority then .idle
      else .busy ⟨w.tick, w.now, t.status == .running⟩ .taking }

/-- The beginning of a tick at one stroke. -/
theorem purged_lookUp (p : Plant) (tick : Tick) (now : Instant) :
    (p.lookUp tick).purged ⟨tick, now, p.roster.reap⟩ = p.tickOver tick now := by
  unfold tickOver Timer.reaped
  cases hasked : p.roster.reap with
  | true =>
    rw [Timer.reapIfAsked_of_asked (t := { p.timer with ticks := tick }) hasked]
    rfl
  | false =>
    have hdown : p.withFlag false = p := by rw [withFlag, ← hasked]; rfl
    rw [Timer.reapIfAsked_of_not_asked (t := { p.timer with ticks := tick })
      (Bool.eq_false_iff.mp hasked), lookUp, hdown]
    rfl

/-- The queue when closed jobs were cleared out, if the flag was up. -/
theorem queue_purged (p : Plant) (w : Purge) : (p.purged w).timer.queue =
    if w.asked then (p.timer.queue.retain fun id => !p.roster.isClosed id).2
    else p.timer.queue := by
  unfold purged
  cases w.asked <;> rfl

/-- The other jobs keep their places. -/
theorem contents_purged (p : Plant) (w : Purge) : (p.purged w).timer.queue.contents =
    if w.asked then p.timer.queue.contents.filter fun e => p.roster.isClosed e.value = false
    else p.timer.queue.contents := by
  rw [queue_purged]
  split
  · rw [Queue.contents_retain]
    exact Multiset.filter_congr fun e _ => by rw [Bool.not_eq_true']
  · rfl

theorem wf_purged (hp : p.timer.queue.WF) (w : Purge) : (p.purged w).timer.queue.WF := by
  rw [queue_purged]
  split
  · exact hp.retain _
  · exact hp

theorem hand_purged (p : Plant) (w : Purge) : (p.purged w).ticker.hand? = none := by
  unfold purged
  dsimp only
  generalize (if w.asked = true then p.timer.reapClosed.2 else p.timer) = timer
  split <;> rfl

theorem roster_purged (p : Plant) (w : Purge) : (p.purged w).roster = p.roster := by
  unfold purged
  cases w.asked <;> rfl

/-- Nobody has treated a job that is yet to be queued. -/
def Discreet (p q : Plant) : Prop := ∀ e ∈ p.adding, q.roster.get? e.1 = p.roster.get? e.1

/-! ### What the steps do to places and flag -/

/-- The flag is up after a step in which a job was closed. -/
theorem Step.reap_of_closed (h : Step p o q) (hopen : p.roster.isClosed id = false)
    (hclosed : q.roster.isClosed id = true) : q.roster.reap = true := by
  have hsame (heq : q.roster.get? id = p.roster.get? id) : q.roster.reap = true := by
    rw [Roster.isClosed, heq, ← Roster.isClosed, hopen] at hclosed
    cases hclosed
  cases h with
  | work d s does => exact does.step.updates.reap_of_closed hopen hclosed
  | create o now job =>
    cases hj : p.roster.get? id with
    | none =>
      rw [Roster.isClosed, hj] at hopen
      cases hopen
    | some j => exact hsame ((get?_add_of_get? hj job).trans hj.symm)
  | tick tick now => exact hsame (p.get?_tickOver tick now id)
  | look | cap | retire | closeJob =>
    exact (Roster.updates_update _ _ _).reap_of_closed hopen hclosed
  | count sweep id' =>
    exact (Runner.updates_enqueue _ id').reap_of_closed hopen hclosed
  | clear => exact (Runner.updates_dropLine _).reap_of_closed hopen hclosed
  | _ => exact hsame rfl

/-- A job comes into the queue when it was created, or out of the hand of the tick thread. -/
theorem Step.of_queued (h : Step p o q) {e : Entry JobId} (he : e ∈ q.timer.queue.entries) :
    e ∈ p.timer.queue.entries ∨ (∃ f ∈ p.adding, f.1 = e.value) ∨
      p.ticker.hand? = some e.value := by
  cases h with
  | enlist before id tick after created =>
    obtain hmem | rfl := Queue.mem_push.mp he
    · exact Or.inl hmem
    · exact Or.inr (Or.inl ⟨(id, tick), by rw [created]; simp, rfl⟩)
  | tick tick now =>
    exact Or.inl (Queue.mem_places.mp
      (Multiset.mem_of_le (p.timer.places_reaped_le tick _) (Queue.mem_places.mpr he)))
  | take sweep f queue taking due =>
    have hcontents := Queue.contents_popDue due
    rw [← Queue.mem_contents, hcontents]
    exact Or.inl (Multiset.mem_cons_of_mem (Queue.mem_contents.mpr he))
  | requeue sweep id advance submitted settling =>
    obtain hmem | rfl := Queue.mem_push.mp he
    · exact Or.inl hmem
    · exact Or.inr (Or.inr (by rw [settling]; rfl))
  | drain => exact absurd he (Array.not_mem_empty e)
  | _ => exact Or.inl he

/-- The tick thread takes its jobs out of the queue. -/
theorem Step.of_hand (h : Step p o q) (hhand : q.ticker.hand? = some id) :
    p.ticker.hand? = some id ∨ ∃ e ∈ p.timer.queue.entries, e.value = id := by
  cases h with
  | take sweep e queue taking due =>
    refine Or.inr ⟨e, ?_, Option.some.inj hhand⟩
    rw [← Queue.mem_contents, Queue.contents_popDue due]
    exact Multiset.mem_cons_self e _
  | tick tick now =>
    unfold tickOver at hhand
    dsimp only at hhand
    split at hhand <;> cases hhand
  | decide sweep id' advance deciding =>
    exact Or.inl (by rw [deciding]; exact (p.hand_decided sweep id' advance).symm.trans hhand)
  | look _ _ _ ticker | cap _ _ _ ticker | turnAway _ _ _ ticker | check _ _ _ ticker
  | count _ _ _ ticker => exact Or.inl (by rw [ticker]; exact hhand)
  | rest | skip | requeue | retire | dismiss => cases hhand
  | _ => exact Or.inl hhand

theorem Step.of_adding (h : Step p o q) {e : JobId × Tick} (he : e ∈ q.adding) :
    e ∈ p.adding ∨ o = .created e.1 := by
  cases h with
  | create o now job =>
    obtain rfl | hmem := List.mem_cons.mp he
    · exact Or.inr rfl
    · exact Or.inl hmem
  | enlist before id tick after created =>
    left
    rw [created, List.mem_append, List.mem_cons]
    exact (List.mem_append.mp he).imp_right Or.inr
  | _ => exact Or.inl he

/-- No job is closed from the start. -/
theorem Step.isClosed_of_created (h : Step p (.created id) q) : q.roster.isClosed id = false := by
  cases h with
  | create o now job opened made =>
    have hget : (p.roster.add job).2.get? p.roster.jobs.size = some job := Array.getElem?_push_size
    exact (Roster.isClosed_of_get? hget).trans (Job.isClosed_create made)

theorem Step.wf (h : Step p o q) (hp : p.timer.queue.WF) : q.timer.queue.WF := by
  cases h with
  | enlist | requeue => exact hp.push _ _
  | tick tick now => exact Timer.wf_reaped hp tick
  | take sweep e queue taking due => exact hp.popDue due
  | drain => exact Queue.wf_empty
  | _ => exact hp

/-- The tick thread has nothing to do before the next tick. -/
theorem Step.idle (h : Step p o q) (hp : p.ticker = .idle)
    (same : q.timer.ticks = p.timer.ticks) : q.ticker = .idle := by
  cases h with
  | tick tick now idle running next =>
    have hticks : (p.tickOver tick now).timer.ticks = tick := p.timer.ticks_reaped tick
    rw [← hticks, same] at next
    omega
  | take _ _ _ ticker | rest _ ticker | skip _ _ ticker | look _ _ _ ticker
  | decide _ _ _ ticker | cap _ _ _ ticker | turnAway _ _ _ ticker | check _ _ _ ticker
  | count _ _ _ ticker | requeue _ _ _ _ ticker | retire _ _ _ ticker | dismiss _ _ _ ticker =>
    cases hp.symm.trans ticker
  | _ => exact hp

end Plant

/-- A timer with all its threads, some of which may be in the middle of a closing or of a
clearing. -/
structure Cleanup where
  plant : Plant
  /-- Jobs that were closed by threads that are about to raise the flag. -/
  raising : List JobId := []
  /-- The tick thread has looked at the flag and is about to clear out closed jobs. -/
  purge? : Option Purge := none

namespace Cleanup

/-- The tick thread looks at the flag and lowers it. -/
def lower (s : Cleanup) (tick : Tick) (now : Instant) : Cleanup :=
  { s with
    plant := s.plant.lookUp tick
    purge? := some ⟨tick, now, s.plant.roster.reap⟩ }

/-- What one thread does without being interrupted, and what is seen of it. -/
inductive Step : Cleanup → Occasion → Cleanup → Prop
  /-- Any other step. If the flag has gone up in it because a job was closed, the thread is yet to
  raise it. -/
  | go (s : Cleanup) {o : Occasion} {q : Plant} (closed : List JobId)
      (step : Plant.Step (s.plant.withFlag false) o q)
      (same : q.timer.ticks = s.plant.timer.ticks)
      (discreet : Plant.Discreet s.plant q)
      (closers : ∀ id, id ∈ closed ↔
        q.roster.reap = true ∧ s.plant.roster.isClosed id = false ∧ q.roster.isClosed id = true) :
      Step s o
        { s with
          plant := q.withFlag s.plant.roster.reap
          raising := closed ++ s.raising }
  /-- A thread that has closed a job raises the flag. -/
  | raise (s : Cleanup) (before : List JobId) (id : JobId) (after : List JobId)
      (raising : s.raising = before ++ id :: after) :
      Step s .quiet { s with plant := s.plant.withFlag true, raising := before ++ after }
  /-- A tick begins. -/
  | lower (s : Cleanup) (tick : Tick) (now : Instant) (free : s.purge? = none)
      (idle : s.plant.ticker = .idle)
      (running : s.plant.closer = .absent ∨ s.plant.closer = .joining)
      (next : tick.val = s.plant.timer.ticks.val + 1) : Step s .quiet (s.lower tick now)
  /-- The tick thread clears out closed jobs. -/
  | purge (s : Cleanup) (w : Purge) (purging : s.purge? = some w) :
      Step s .quiet { s with plant := s.plant.purged w, purge? := none }

/-- An interleaving of steps. -/
abbrev Run : Cleanup → List Occasion → Cleanup → Prop := Course Step

/-- A timer that has just been created. -/
structure Opened (s : Cleanup) : Prop where
  plant : s.plant.Opened
  raising : s.raising = []
  purge? : s.purge? = none

variable {s t u : Cleanup} {id : JobId} {o : Occasion} {os : List Occasion}

/-- If a job is closed, the flag is up, or it is about to go up, or the tick thread has found it up
and is about to clear the job out. -/
def Told (s : Cleanup) (id : JobId) : Prop :=
  s.plant.roster.isClosed id = true → s.plant.roster.reap = true ∨ id ∈ s.raising ∨
    ∃ w, s.purge? = some w ∧ w.asked = true

theorem Told.flag (h : s.Told id) (hclosed : s.plant.roster.isClosed id = true)
    (told : id ∉ s.raising) (free : s.purge? = none) : s.plant.roster.reap = true := by
  obtain hflag | hraising | ⟨w, hpurge, -⟩ := h hclosed
  · exact hflag
  · exact absurd hraising told
  · cases free.symm.trans hpurge

/-- Every closed job in the queue will be looked for, and so will a job that may go back into it. -/
structure Watched (s : Cleanup) : Prop where
  wf : s.plant.timer.queue.WF
  queue : ∀ e ∈ s.plant.timer.queue.entries, s.Told e.value
  hand : ∀ id, s.plant.ticker.hand? = some id → s.Told id
  adding : ∀ e ∈ s.plant.adding, s.plant.roster.isClosed e.1 = false
  idle : s.purge? ≠ none → s.plant.ticker = .idle

/-- Whoever closes a job tells of it. -/
theorem Told.go {q : Plant} {closed : List JobId} (hs : s.Told id)
    (step : Plant.Step (s.plant.withFlag false) o q)
    (closers : ∀ id, id ∈ closed ↔
      q.roster.reap = true ∧ s.plant.roster.isClosed id = false ∧ q.roster.isClosed id = true) :
    Told { s with
      plant := q.withFlag s.plant.roster.reap
      raising := closed ++ s.raising } id := by
  intro hclosed
  have hclosed : q.roster.isClosed id = true := hclosed
  cases hbefore : s.plant.roster.isClosed id with
  | true => exact (hs hbefore).imp_right (Or.imp_left (List.mem_append_right _))
  | false =>
    have hreap := step.reap_of_closed hbefore hclosed
    exact Or.inr (Or.inl (List.mem_append_left _ ((closers id).mpr ⟨hreap, hbefore, hclosed⟩)))

/-- A tick begins: the flag was up, or it is about to go up again. -/
theorem Watched.lower (hs : s.Watched) (free : s.purge? = none) (idle : s.plant.ticker = .idle)
    (tick : Tick) (now : Instant) : (s.lower tick now).Watched := by
  refine ⟨hs.wf, fun e he hclosed => ?_, fun id hid => ?_, hs.adding, fun _ => idle⟩
  · obtain hflag | hraising | ⟨w, hpurge, -⟩ := hs.queue e he hclosed
    · exact Or.inr (Or.inr ⟨_, rfl, hflag⟩)
    · exact Or.inr (Or.inl hraising)
    · cases free.symm.trans hpurge
  · have hhand : s.plant.ticker.hand? = some id := hid
    rw [idle] at hhand
    cases hhand

theorem Step.watched (h : Step s o t) (hs : s.Watched) : t.Watched := by
  cases h with
  | @go o q closed step same discreet closers =>
    have htold (id : JobId) (h : s.Told id) := h.go step closers
    refine ⟨step.wf hs.wf, fun e he => htold _ ?_, fun id hid => htold _ ?_, fun e he => ?_,
      fun hpurge => step.idle (hs.idle hpurge) same⟩
    · obtain hmem | ⟨f, hf, hvalue⟩ | hhand := step.of_queued he
      · exact hs.queue e hmem
      · -- a job that has just been created is open
        intro hclosed
        rw [← hvalue, hs.adding f hf] at hclosed
        cases hclosed
      · exact hs.hand _ hhand
    · obtain hhand | ⟨e, he, rfl⟩ := step.of_hand hid
      · exact hs.hand id hhand
      · exact hs.queue e he
    · obtain hmem | hcreated := step.of_adding he
      · have hopen : q.roster.isClosed e.1 = false := by
          rw [Roster.isClosed, discreet e hmem, ← Roster.isClosed, hs.adding e hmem]
        exact hopen
      · have hopen : q.roster.isClosed e.1 = false :=
          Plant.Step.isClosed_of_created (hcreated ▸ step)
        exact hopen
  | raise before id after raising =>
    exact ⟨hs.wf, fun _ _ _ => Or.inl rfl, fun _ _ _ => Or.inl rfl, hs.adding, hs.idle⟩
  | lower tick now free idle => exact hs.lower free idle tick now
  | purge w purging =>
    refine ⟨Plant.wf_purged hs.wf w, fun e he hclosed => ?_, fun id hid => ?_, fun e he => ?_,
      fun h => absurd rfl h⟩
    · have he : e ∈ (s.plant.purged w).timer.queue.entries := he
      have hclosed : (s.plant.purged w).roster.isClosed e.value = true := hclosed
      rw [← Queue.mem_contents, Plant.contents_purged] at he
      rw [Plant.roster_purged] at hclosed
      split at he
      · rw [(Multiset.mem_filter.mp he).2] at hclosed
        cases hclosed
      · next hnot =>
        obtain hflag | hraising | ⟨w', hpurge, hasked⟩ :=
          hs.queue e (Queue.mem_contents.mp he) hclosed
        · exact Or.inl (by rw [Plant.roster_purged, hflag])
        · exact Or.inr (Or.inl hraising)
        · cases purging.symm.trans hpurge
          exact absurd hasked hnot
    · cases (s.plant.hand_purged w).symm.trans hid
    · exact (congrArg (Roster.isClosed · e.1) (s.plant.roster_purged w)).trans (hs.adding e he)

theorem Run.watched (h : Run s os t) (hs : s.Watched) : t.Watched :=
  h.preserves (P := Watched) (fun hstep hs => hstep.watched hs) hs

theorem Opened.watched (h : Opened s) : s.Watched := by
  have horderly := h.plant.orderly
  have hqueue : s.plant.timer.queue = .empty := by
    obtain ⟨config, parallelism, now, hnew⟩ := h.plant.timer
    exact Timer.new_eq_ok hnew
  constructor
  case wf => exact horderly.queue.wf
  case queue =>
    rw [hqueue]
    exact fun e he => absurd he (Array.not_mem_empty e)
  case hand =>
    rw [h.plant.ticker]
    exact nofun
  case adding =>
    rw [h.plant.adding]
    exact fun e he => absurd he List.not_mem_nil
  case idle => exact fun hpurge => absurd h.purge? hpurge

/-- A closed job is not in the queue, or the tick thread is about to clear it out. -/
structure Passing (s : Cleanup) (id : JobId) : Prop where
  known : id < s.plant.roster.jobs.size
  closed : s.plant.roster.isClosed id = true
  hand : s.plant.ticker.hand? ≠ some id
  queue : ∀ e ∈ s.plant.timer.queue.entries, e.value = id →
    ∃ w, s.purge? = some w ∧ w.asked = true

/-- It does not come back. -/
theorem Step.passing (h : Step s o t) (hs : s.Watched) (hp : s.Passing id) : t.Passing id := by
  cases h with
  | @go o q closed step same discreet closers =>
    refine ⟨step.lt_size hp.known, step.isClosed hp.known hp.closed, fun hhand => ?_,
      fun e he hvalue => ?_⟩
    · obtain hbefore | ⟨e, he, hvalue⟩ := step.of_hand hhand
      · exact hp.hand hbefore
      · -- the tick thread takes nothing out of the queue before it has cleared it
        obtain ⟨w, hpurge, -⟩ := hp.queue e he hvalue
        have hidle := step.idle (hs.idle (by rw [hpurge]; nofun)) same
        have hhand : q.ticker.hand? = some id := hhand
        rw [hidle] at hhand
        cases hhand
    · obtain hmem | ⟨f, hf, hadding⟩ | hhand := step.of_queued he
      · exact hp.queue e hmem hvalue
      · have hopen := hs.adding f hf
        rw [hadding, hvalue, hp.closed] at hopen
        cases hopen
      · exact absurd (hvalue ▸ hhand) hp.hand
  | raise => exact ⟨hp.known, hp.closed, hp.hand, hp.queue⟩
  | lower tick now free =>
    refine ⟨hp.known, hp.closed, hp.hand, fun e he hvalue => ?_⟩
    obtain ⟨w, hpurge, -⟩ := hp.queue e he hvalue
    cases free.symm.trans hpurge
  | purge w purging =>
    have hroster := s.plant.roster_purged w
    refine ⟨lt_of_lt_of_eq hp.known (congrArg (fun r : Roster => r.jobs.size) hroster).symm,
      (congrArg (Roster.isClosed · id) hroster).trans hp.closed, ?_, fun e he hvalue => ?_⟩
    · exact fun hhand => nomatch (s.plant.hand_purged w).symm.trans hhand
    · have he : e ∈ (s.plant.purged w).timer.queue.entries := he
      rw [← Queue.mem_contents, Plant.contents_purged] at he
      split at he
      · have hopen := (Multiset.mem_filter.mp he).2
        rw [hvalue, hp.closed] at hopen
        cases hopen
      · next hnot =>
        obtain ⟨w', hpurge, hasked⟩ := hp.queue e (Queue.mem_contents.mp he) hvalue
        cases purging.symm.trans hpurge
        exact absurd hasked hnot

theorem Run.passing (h : Run s os t) (hs : s.Watched) (hp : s.Passing id) : t.Passing id := by
  induction h with
  | refl => exact hp
  | snoc hrun hstep ih => exact hstep.passing (Run.watched hrun hs) ih

/-- A job that is closed when a tick begins is on its way out. -/
theorem Watched.passing_lower (hs : s.Watched) {j : Job} (hj : s.plant.roster.get? id = some j)
    (hclosed : j.isClosed = true) (told : id ∉ s.raising) (free : s.purge? = none)
    (idle : s.plant.ticker = .idle) (tick : Tick) (now : Instant) :
    (s.lower tick now).Passing id := by
  have hclosed : s.plant.roster.isClosed id = true := (Roster.isClosed_of_get? hj).trans hclosed
  refine ⟨(Array.getElem?_eq_some_iff.mp hj).1, hclosed, fun hhand => ?_, ?_⟩
  · have hhand : s.plant.ticker.hand? = some id := hhand
    rw [idle] at hhand
    cases hhand
  · rintro e he rfl
    exact ⟨_, rfl, (hs.queue e he).flag hclosed told free⟩

/-- While no closing and no clearing is under way, the flag is up if a closed job is in the queue. A
job that is closed when a tick begins is not in the queue any more when that tick has cleared it,
nor at any later time. The clearing leaves the open jobs in their places, and the least tick beside
the heap is the least one again. -/
theorem Run.reaping {start : Cleanup} (h : Run start os s) (hstart : Opened start) :
    (∀ e ∈ s.plant.timer.queue.entries, s.plant.roster.isClosed e.value = true →
      e.value ∉ s.raising → s.purge? = none → s.plant.roster.reap = true) ∧
    (∀ id j tick now es u, s.plant.roster.get? id = some j → j.isClosed = true →
      id ∉ s.raising → s.purge? = none → s.plant.ticker = .idle →
      Run (s.lower tick now) es u → u.purge? = none → u.plant.timer.queue.places id = 0) ∧
    (∀ w, s.purge? = some w →
      (∀ id, s.plant.roster.isClosed id = false →
        (s.plant.purged w).timer.queue.places id = s.plant.timer.queue.places id) ∧
      (s.plant.purged w).roster = s.plant.roster ∧
      ((s.plant.purged w).timer.queue.entries = #[] →
        (s.plant.purged w).timer.queue.nextPriority = Tick.last) ∧
      ((s.plant.purged w).timer.queue.entries ≠ #[] →
        IsLeast {p | ∃ e ∈ (s.plant.purged w).timer.queue.entries, e.priority = p}
          (s.plant.purged w).timer.queue.nextPriority)) := by
  have hs := Run.watched h hstart.watched
  refine ⟨fun e he hclosed told free => (hs.queue e he).flag hclosed told free,
    fun id j tick now es u hj hclosed told free idle hrun hdone => ?_, fun w purging => ?_⟩
  · have hpassing := Run.passing hrun (hs.lower free idle tick now)
      (hs.passing_lower hj hclosed told free idle tick now)
    refine Multiset.eq_zero_of_forall_notMem fun p hplace => ?_
    obtain ⟨w, hpurge, -⟩ := hpassing.queue _ (Queue.mem_places.mp hplace) rfl
    cases hdone.symm.trans hpurge
  · have hwf := Plant.wf_purged hs.wf w
    refine ⟨fun id hopen => ?_, s.plant.roster_purged w, hwf.next_of_empty, hwf.isLeast_next⟩
    rw [Plant.queue_purged]
    split
    · exact Queue.places_retain (by rw [hopen]; rfl)
    · rfl

/-- A job in the queue was closed, and the flag is yet to be raised. -/
def unflagged : Cleanup where
  plant := (Plant.queued false).withRoster { jobs := #[(Job.final false).close] }
  raising := [0]

/-- A job is added, and someone closes it. -/
theorem run_unflagged : ∃ os, Run { plant := Plant.lone } os unflagged := by
  have hcreate : Step { plant := Plant.lone } (.created 0) { plant := Plant.created false } := by
    refine .go { plant := Plant.lone } [] (Plant.step_created false) rfl ?_ ?_
    · exact fun e he => absurd he List.not_mem_nil
    · exact fun id => iff_of_false List.not_mem_nil (fun h => nomatch h.1)
  have henlist : Step { plant := Plant.created false } .quiet { plant := Plant.queued false } := by
    refine .go { plant := Plant.created false } [] (.enlist (Plant.created false) [] 0 1 [] rfl) rfl
      (fun e he => rfl) ?_
    exact fun id => iff_of_false List.not_mem_nil (fun h => nomatch h.1)
  have hclose : Step { plant := Plant.queued false } (.worked (.acted 0 .close)) unflagged := by
    refine .go { plant := Plant.queued false } [0]
      (.work (Plant.queued false) _ _ (.act (Plant.queued false).shift 0 .close)) rfl
      (fun e he => absurd he List.not_mem_nil) fun id => ?_
    cases id with
    | zero => exact iff_of_true List.mem_cons_self ⟨rfl, rfl, rfl⟩
    | succ n =>
      have hnone : (Plant.queued false).roster.get? (n + 1) = none :=
        Array.getElem?_eq_none (Nat.le_add_left 1 n)
      refine iff_of_false (by simp) fun ⟨_, hopen, _⟩ => ?_
      have hopen : (Plant.queued false).roster.isClosed (n + 1) = false := hopen
      rw [Roster.isClosed, hnone] at hopen
      cases hopen
  exact ⟨_, ((Course.single hcreate).snoc henlist).snoc hclose⟩

/-- The flag has been raised. -/
def flagged : Cleanup where
  plant := unflagged.plant.withFlag true

/-- The flag is up, and the next tick clears the job out of the queue. -/
theorem reaping_unflagged : ∃ os s, Opened { plant := Plant.lone } ∧
    Run { plant := Plant.lone } os s ∧ s.plant.roster.isClosed 0 = true ∧
    s.plant.timer.queue.places 0 = {1} ∧ s.plant.roster.reap = true ∧
    (s.plant.tickOver 1 (.ofSecs 4133894400)).timer.queue.places 0 = 0 := by
  obtain ⟨os, hrun⟩ := run_unflagged
  have hopened : Opened { plant := Plant.lone } := ⟨Plant.opened_lone, rfl, rfl⟩
  have hraise : Step unflagged .quiet flagged := .raise unflagged [] 0 [] rfl
  obtain ⟨hflag, hpurged, -⟩ := Run.reaping (hrun.snoc hraise) hopened
  have hplaces : flagged.plant.timer.queue.places 0 = {1} := Queue.places_push_self .empty 0 1
  refine ⟨_, flagged, hopened, hrun.snoc hraise, rfl, hplaces, ?_, ?_⟩
  · exact hflag ⟨0, 1⟩ (Queue.mem_places.mp (hplaces ▸ Multiset.mem_singleton_self 1)) rfl
      List.not_mem_nil rfl
  · have hgone := hpurged 0 (Job.final false).close 1 (.ofSecs 4133894400) _ _ rfl rfl
      List.not_mem_nil rfl rfl (.single (.purge _ _ rfl)) rfl
    rwa [← Plant.purged_lookUp]

end Cleanup

end Metronome
