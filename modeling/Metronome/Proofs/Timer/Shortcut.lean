import Metronome.Proofs.Timer.Reaping
import Metronome.Proofs.Timer.Turns

/-!
# The shortcut of a tick

A tick visits no job as long as the least tick in the queue is yet to come, which is kept beside the
heap. A tick thread that looks into the heap at every tick would find nothing there in this case, so
the two do the same: at a tick that is taken at one stroke, whatever happens between the ticks, and
also if the other threads come in between while a tick is going on.

In the latter case the one thread is at rest when the other one has yet to see that there is
nothing to do. A job that goes into the queue meanwhile must not be due already, since then the
other thread would find it at once, and the one with the shortcut at the next tick.

## Main definitions

* `Timer.fullTurn` — a tick without the shortcut
* `Plant.Lap` — what happens to a timer whose ticks are taken at one stroke
* `Plant.Plod` — what happens to a timer whose tick thread does not know the shortcut
* `Plant.Punctual` — no job is still being added when its tick has come
* `Plant.Rested` — one tick thread is at rest, the other one is about to find nothing to do

## Main results

* `Queue.WF.popDue_eq_none` — nothing is due before the least tick
* `Plant.Run.plods`, `Plant.Run.of_plods` — what one thread does can be done by the other one
* `Plant.Reachable.shortcut` — all this of the states that a timer can come to
-/

namespace Metronome

namespace Queue

variable {α : Type} {q : Queue α} {tick : Tick}

theorem popDue_eq_none_of_later (h : ∀ e ∈ q.entries, tick < e.priority) :
    q.popDue tick = none := by
  refine Option.eq_none_iff_forall_not_mem.mpr fun ⟨e, rest⟩ hpop => ?_
  obtain ⟨-, -, -, hle⟩ := popDue_eq_some hpop
  have he : e ∈ q.entries := by
    rw [← mem_contents, contents_popDue hpop]
    exact Multiset.mem_cons_self e _
  have hlt := h e he
  rw [Tick.le_def] at hle
  rw [Tick.lt_def] at hlt
  omega

/-- All entries come after a tick if the priority beside the heap does. -/
theorem WF.later_of_lt_next (h : q.WF) (hlt : tick < q.nextPriority) :
    ∀ e ∈ q.entries, tick < e.priority := by
  intro e he
  have hnext := h.le_next_iff.mp (Tick.le_def.mpr (Int.le_refl _)) e he
  rw [Tick.le_def] at hnext
  rw [Tick.lt_def] at hlt ⊢
  omega

/-- Nothing is due before the least tick, which is the last one when the queue is empty. -/
theorem WF.popDue_eq_none (h : q.WF) (hlt : tick < q.nextPriority) : q.popDue tick = none :=
  popDue_eq_none_of_later (h.later_of_lt_next hlt)

end Queue

namespace Timer

variable {t : Timer} {tick : Tick} {now : Instant}

/-! ### At one stroke -/

/-- A tick without the shortcut, with what is handed to the runner, in order. -/
def fullTurn (t : Timer) (tick : Tick) (now : Instant) : List (JobId × Submission) × Timer :=
  (t.reaped tick).proceedLog tick now ((t.reaped tick).status == .running)
    (t.reaped tick).queue.size

theorem snd_fullTurn (t : Timer) (tick : Tick) (now : Instant) :
    (t.fullTurn tick now).2 = (t.reaped tick).proceed tick now :=
  snd_proceedLog _ _

/-- The loop of a tick leaves the timer alone if nothing is due. -/
theorem proceed_of_lt (h : t.queue.WF) (hlt : tick < t.queue.nextPriority) :
    t.proceedLog tick now (t.status == .running) t.queue.size = ([], t) ∧
      t.proceed tick now = t := by
  have hlog : t.proceedLog tick now (t.status == .running) t.queue.size = ([], t) :=
    proceedLog_of_none (h.popDue_eq_none hlt) _
  refine ⟨hlog, ?_⟩
  rw [proceed, ← snd_proceedLog, hlog]

theorem wf_reapClosed (h : t.queue.WF) : t.reapClosed.2.queue.WF :=
  h.retain fun id => !t.roster.isClosed id

/-- The shortcut changes neither what a tick does nor what it hands to the runner. -/
theorem turnLog_eq_fullTurn (h : t.queue.WF) (tick : Tick) (now : Instant) :
    t.turnLog tick now = t.fullTurn tick now := by
  rw [turnLog_eq, fullTurn]
  split
  · next hlt => exact (proceed_of_lt (wf_reaped h tick) hlt).1.symm
  · rfl

theorem wf_proceedLog (h : t.queue.WF) (dispatching : Bool) (fuel : Nat) :
    (t.proceedLog tick now dispatching fuel).2.queue.WF := by
  induction fuel generalizing t with
  | zero => exact h
  | succ fuel ih =>
    cases hpop : t.queue.popDue tick with
    | none =>
      rw [proceedLog_of_none hpop]
      exact h
    | some popped =>
      obtain ⟨e, queue⟩ := popped
      rw [proceedLog_of_some hpop]
      obtain ⟨-, -, hqueue⟩ :=
        { t with queue := queue }.frame_visitLog e.value tick now dispatching
      refine ih ?_
      obtain hsame | ⟨p, hpush⟩ := hqueue
      · rw [hsame]
        exact h.popDue hpop
      · rw [hpush]
        exact (h.popDue hpop).push _ _

end Timer

namespace Plant

variable {p q r : Plant} {o : Occasion} {os : List Occasion}

/-- What happens to a timer whose ticks are taken at one stroke, while all its other threads take
one step after the other. What is seen of a tick is what it hands to the runner. -/
inductive Lap (turn : Timer → Tick → Instant → List (JobId × Submission) × Timer) :
    Plant → Occasion ⊕ List (JobId × Submission) → Plant → Prop
  /-- A step that does not begin a tick. -/
  | step (p : Plant) (o : Occasion) (q : Plant) (step : Step p o q)
      (between : q.timer.ticks = p.timer.ticks) : Lap turn p (.inl o) q
  | turn (p : Plant) (tick : Tick) (now : Instant) (idle : p.ticker = .idle) :
      Lap turn p (.inr (turn p.timer tick now).1)
        { p with timer := (turn p.timer tick now).2 }

theorem Lap.wf {e : Occasion ⊕ List (JobId × Submission)} (h : Lap Timer.fullTurn p e q)
    (hp : p.timer.queue.WF) : q.timer.queue.WF := by
  cases h with
  | step o q step between => exact step.wf hp
  | turn tick now idle => exact Timer.wf_proceedLog (Timer.wf_reaped hp tick) _ _

/-- With and without the shortcut, the same happens. -/
theorem lap_iff {e : Occasion ⊕ List (JobId × Submission)} (hp : p.timer.queue.WF) :
    Lap Timer.turnLog p e q ↔ Lap Timer.fullTurn p e q := by
  constructor
  · intro h
    cases h with
    | step o q step between => exact .step p o q step between
    | turn tick now idle =>
      rw [Timer.turnLog_eq_fullTurn hp]
      exact .turn p tick now idle
  · intro h
    cases h with
    | step o q step between => exact .step p o q step between
    | turn tick now idle =>
      rw [← Timer.turnLog_eq_fullTurn hp]
      exact .turn p tick now idle

theorem course_lap_iff {es : List (Occasion ⊕ List (JobId × Submission))}
    (hp : p.timer.queue.WF) :
    Course (Lap Timer.turnLog) p es q ↔ Course (Lap Timer.fullTurn) p es q := by
  have hwf {es r} (h : Course (Lap Timer.fullTurn) p es r) : r.timer.queue.WF :=
    h.preserves (P := fun u => u.timer.queue.WF) (fun h hu => h.wf hu) hp
  constructor
  · intro h
    induction h with
    | refl => exact .refl p
    | snoc _ hlap ih => exact ih.snoc ((lap_iff (hwf ih)).mp hlap)
  · intro h
    induction h with
    | refl => exact .refl p
    | snoc hrun hlap ih => exact ih.snoc ((lap_iff (hwf hrun)).mpr hlap)

/-! ### Step by step -/

/-- What is seen of a number of steps. -/
def visible (os : List Occasion) : List Occasion := os.filter fun o => o ≠ .quiet

theorem visible_append (os os' : List Occasion) :
    visible (os ++ os') = visible os ++ visible os' := List.filter_append ..

/-- The beginning of a tick without the shortcut: the tick thread is about to look for jobs. -/
def plodOver (p : Plant) (tick : Tick) (now : Instant) : Plant :=
  { p with
    timer := p.timer.reaped tick
    ticker := .busy ⟨tick, now, (p.timer.reaped tick).status == .running⟩ .taking }

/-- What one thread does without being interrupted, if the tick thread does not know the
shortcut. -/
inductive Plod : Plant → Occasion → Plant → Prop
  /-- A step that does not begin a tick. -/
  | step (p : Plant) (o : Occasion) (q : Plant) (step : Step p o q)
      (between : q.timer.ticks = p.timer.ticks) : Plod p o q
  | tick (p : Plant) (tick : Tick) (now : Instant) (idle : p.ticker = .idle)
      (running : p.closer = .absent ∨ p.closer = .joining)
      (next : tick.val = p.timer.ticks.val + 1) :
      Plod p .quiet (p.plodOver tick now)

/-- A step begins a tick or leaves the tick counter alone. -/
theorem Step.ticks_eq_or (h : Step p o q) : q.timer.ticks = p.timer.ticks ∨
    ∃ tick now, p.ticker = .idle ∧ (p.closer = .absent ∨ p.closer = .joining) ∧
      tick.val = p.timer.ticks.val + 1 ∧ o = .quiet ∧ q = p.tickOver tick now := by
  cases h with
  | tick tick now idle running next => exact .inr ⟨tick, now, idle, running, next, rfl, rfl⟩
  | _ => exact .inl rfl

/-- A tick that takes the shortcut is one that does not, and finds nothing to do. -/
theorem Step.plods (h : Step p o q) (hp : p.timer.queue.WF) :
    ∃ os, Course Plod p os q ∧ visible os = visible [o] := by
  obtain hbetween | ⟨tick, now, idle, running, next, rfl, rfl⟩ := h.ticks_eq_or
  · exact ⟨[o], .single (.step p o q h hbetween), rfl⟩
  · have htick := Plod.tick p tick now idle running next
    unfold tickOver
    dsimp only
    split
    · next hlt =>
      -- the thread that does not know the shortcut comes to rest a step later
      have hnone := (Timer.wf_reaped hp tick).popDue_eq_none hlt
      have hrest := Step.rest (p.plodOver tick now) _ rfl hnone
      exact ⟨[.quiet, .quiet], (Course.single htick).snoc (.step _ _ _ hrest rfl), rfl⟩
    · exact ⟨[.quiet], .single htick, rfl⟩

/-- Whatever happens with the shortcut can happen without it. -/
theorem Run.plods (h : Run p os q) (hp : p.timer.queue.WF) :
    ∃ os', Course Plod p os' q ∧ visible os' = visible os := by
  induction h with
  | refl => exact ⟨[], .refl p, rfl⟩
  | snoc hrun hstep ih =>
    obtain ⟨es, hes, hsame⟩ := ih
    have hwf := hrun.preserves (P := fun u => u.timer.queue.WF) (fun h hu => h.wf hu) hp
    obtain ⟨fs, hfs, hlast⟩ := hstep.plods hwf
    exact ⟨es ++ fs, hes.append hfs, by rw [visible_append, visible_append, hsame, hlast]⟩

theorem Plod.wf (h : Plod p o q) (hp : p.timer.queue.WF) : q.timer.queue.WF := by
  cases h with
  | step o q step between => exact step.wf hp
  | tick tick now => exact Timer.wf_reaped hp tick

/-- No job is still being added when its tick has come. -/
def Punctual (p : Plant) : Prop := ∀ e ∈ p.adding, p.timer.ticks < e.2

/-- The tick thread is about to look for jobs, and none of them is due. -/
def Futile (p : Plant) : Prop :=
  ∃ sweep, p.ticker = .busy sweep .taking ∧ sweep.tick = p.timer.ticks ∧
    ∀ e ∈ p.timer.queue.entries, p.timer.ticks < e.priority

/-- The same state, but that the tick thread may be at rest already where it is still about to find
that there is nothing to do. -/
def Rested (p r : Plant) : Prop := r = p ∨ p.Futile ∧ r = { p with ticker := .idle }

/-- While the tick thread is about to look for jobs, the other threads do what they would do if it
was at rest. -/
theorem Step.at_rest {sweep : Sweep} (h : Step p o q) (taking : p.ticker = .busy sweep .taking) :
    (Step { p with ticker := .idle } o { q with ticker := .idle } ∧ q.ticker = p.ticker) ∨
      (o = .quiet ∧ q = { p with ticker := .idle }) ∨
      ∃ e queue, p.timer.queue.popDue sweep.tick = some (e, queue) := by
  cases h with
  | work d s does => exact .inl ⟨.work _ d s does, rfl⟩
  | create o now job opened made => exact .inl ⟨.create _ o now job opened made, rfl⟩
  | enlist before id tick after created => exact .inl ⟨.enlist _ before id tick after created, rfl⟩
  | switch status switched => exact .inl ⟨.switch _ status switched, rfl⟩
  | close absent opened => exact .inl ⟨.close _ absent opened, rfl⟩
  | clear dropping closing idle => exact .inl ⟨.clear _ dropping closing idle, rfl⟩
  | drain draining => exact .inl ⟨.drain _ draining, rfl⟩
  | closeJob id ids closing => exact .inl ⟨.closeJob _ id ids closing, rfl⟩
  | finish closing => exact .inl ⟨.finish _ closing, rfl⟩
  | rest => exact .inr (.inl ⟨rfl, rfl⟩)
  | take sweep' e queue ticker due =>
    cases taking.symm.trans ticker
    exact .inr (.inr ⟨e, queue, due⟩)
  | tick _ _ ticker | shut _ ticker | skip _ _ ticker | look _ _ _ ticker | decide _ _ _ ticker
  | cap _ _ _ ticker | turnAway _ _ _ ticker | check _ _ _ ticker | count _ _ _ ticker
  | requeue _ _ _ _ ticker | retire _ _ _ ticker | dismiss _ _ _ ticker =>
    cases taking.symm.trans ticker

/-- What comes into the queue meanwhile is a job that was being added. -/
theorem Step.later_of_punctual {sweep : Sweep} (h : Step p o q)
    (taking : p.ticker = .busy sweep .taking) (hp : p.Punctual)
    (hlater : ∀ e ∈ p.timer.queue.entries, p.timer.ticks < e.priority) :
    ∀ e ∈ q.timer.queue.entries, p.timer.ticks < e.priority := by
  intro e he
  cases h with
  | enlist before id tick after created =>
    obtain hmem | rfl := Queue.mem_push.mp he
    · exact hlater e hmem
    · exact hp (id, tick) (by rw [created]; simp)
  | take sweep' e' queue ticker due =>
    refine hlater e ?_
    rw [← Queue.mem_contents, Queue.contents_popDue due]
    exact Multiset.mem_cons_of_mem (Queue.mem_contents.mpr he)
  | drain => exact absurd he (Array.not_mem_empty e)
  | tick _ _ ticker | requeue _ _ _ _ ticker => cases taking.symm.trans ticker
  | _ => exact hlater e he

/-- While the tick thread is about to find nothing, the others cannot tell this from its being at
rest. -/
theorem Step.of_futile (h : Step p o q) (between : q.timer.ticks = p.timer.ticks)
    (hfutile : p.Futile) (hp : p.Punctual) :
    ∃ os r, Run { p with ticker := .idle } os r ∧ visible os = visible [o] ∧ q.Rested r := by
  obtain ⟨sweep, taking, htick, hlater⟩ := hfutile
  obtain ⟨hstep, hticker⟩ | ⟨rfl, rfl⟩ | ⟨e, queue, hdue⟩ := h.at_rest taking
  · refine ⟨[o], _, .single hstep, rfl, .inr ⟨⟨sweep, hticker.trans taking, ?_, ?_⟩, rfl⟩⟩
    · rw [htick, between]
    · rw [between]
      exact h.later_of_punctual taking hp hlater
  · exact ⟨[], _, .refl _, rfl, .inl rfl⟩
  · -- there is no job to be taken
    rw [Queue.popDue_eq_none_of_later (htick ▸ hlater)] at hdue
    cases hdue

/-- What happens without the shortcut happens with it. -/
theorem Plod.follow (h : Plod p o q) (hwf : p.timer.queue.WF) (hp : p.Punctual)
    (hr : p.Rested r) :
    ∃ os r', Run r os r' ∧ visible os = visible [o] ∧ q.Rested r' := by
  obtain rfl | ⟨hfutile, rfl⟩ := hr
  · cases h with
    | step o q step between => exact ⟨[o], q, .single step, rfl, .inl rfl⟩
    | tick tick now idle running next =>
      have htick := Step.tick r tick now idle running next
      refine ⟨[.quiet], _, .single htick, rfl, ?_⟩
      unfold tickOver
      dsimp only
      split
      · next hlt =>
        -- from here on the two threads differ, until the other one has looked into the heap
        refine .inr ⟨⟨_, rfl, (r.timer.ticks_reaped tick).symm, ?_⟩, rfl⟩
        change ∀ e ∈ (r.timer.reaped tick).queue.entries, (r.timer.reaped tick).ticks < e.priority
        rw [r.timer.ticks_reaped]
        exact (Timer.wf_reaped hwf tick).later_of_lt_next hlt
      · exact .inl rfl
  · cases h with
    | step o q step between => exact step.of_futile between hfutile hp
    | tick tick now idle =>
      obtain ⟨sweep, hticker, -⟩ := hfutile
      rw [hticker] at idle
      cases idle

/-- Whatever happens without the shortcut can happen with it, as long as no job is still being added
when its tick has come. -/
theorem Run.of_plods (h : Course (fun p o q => p.Punctual ∧ Plod p o q) p os q)
    (hp : p.timer.queue.WF) : ∃ os' r, Run p os' r ∧ visible os' = visible os ∧ q.Rested r := by
  induction h with
  | refl => exact ⟨[], p, .refl p, rfl, .inl rfl⟩
  | snoc hrun hstep ih =>
    obtain ⟨es, r, hes, hsame, hrested⟩ := ih
    have hwf := hrun.preserves (P := fun u => u.timer.queue.WF) (fun h hu => h.2.wf hu) hp
    obtain ⟨fs, r', hfs, hlast, hrested'⟩ := hstep.2.follow hwf hstep.1 hrested
    refine ⟨es ++ fs, r', hes.append hfs, ?_, hrested'⟩
    rw [visible_append, visible_append, hsame, hlast]

/-- In every state that a timer can come to, with its closed jobs cleared out or not, the loop of a
tick that lies before the least tick in the queue does nothing at all. So whether it is left out
makes no difference to a tick: not to the timer, nor to what is handed to the runner. If ticks are
taken at one stroke, then the same happens with and without the shortcut. If they are not, then what
happens with the shortcut also happens without it; and the other way round, as long as no job is
still being added when its tick has come. -/
theorem Reachable.shortcut (hp : Reachable p) :
    (∀ (tick : Tick) (now : Instant) (t : Timer),
      t = { p.timer with ticks := tick } ∨ t = { p.timer with ticks := tick }.reapClosed.2 ∨
          t = p.timer.reaped tick →
        tick < t.queue.nextPriority →
          t.proceedLog tick now (t.status == .running) t.queue.size = ([], t) ∧
            t.proceed tick now = t) ∧
    (∀ (tick : Tick) (now : Instant), p.timer.turnLog tick now = p.timer.fullTurn tick now ∧
      (p.timer.turn tick now).2 = (p.timer.reaped tick).proceed tick now) ∧
    (∀ es q, Course (Lap Timer.turnLog) p es q ↔ Course (Lap Timer.fullTurn) p es q) ∧
    (∀ os q, Run p os q → ∃ os', Course Plod p os' q ∧ visible os' = visible os) ∧
    ∀ os q, Course (fun p o q => p.Punctual ∧ Plod p o q) p os q →
      ∃ os' r, Run p os' r ∧ visible os' = visible os ∧ q.Rested r := by
  have hwf := hp.orderly.queue.wf
  refine ⟨?_, ?_, ?_, ?_, ?_⟩
  · rintro tick now t (rfl | rfl | rfl) hlt
    · exact Timer.proceed_of_lt hwf hlt
    · exact Timer.proceed_of_lt (Timer.wf_reapClosed (t := { p.timer with ticks := tick }) hwf) hlt
    · exact Timer.proceed_of_lt (Timer.wf_reaped hwf tick) hlt
  · intro tick now
    have hlog := Timer.turnLog_eq_fullTurn hwf tick now
    refine ⟨hlog, ?_⟩
    rw [← Timer.snd_turnLog, hlog, Timer.snd_fullTurn]
  · exact fun es q => course_lap_iff hwf
  · exact fun os q hrun => hrun.plods hwf
  · exact fun os q hrun => Run.of_plods hrun hwf

/-- A job waits for the third tick. The first one takes the shortcut, and the loop would have done
nothing. -/
theorem shortcut_waiting : ∃ p, Reachable p ∧ p.timer.queue.size = 1 ∧
    (1 : Tick) < (p.timer.reaped 1).queue.nextPriority ∧
    (p.timer.reaped 1).proceed 1 default = p.timer.reaped 1 ∧
    (p.timer.turn 1 default).2 = (p.timer.reaped 1).proceed 1 default := by
  obtain ⟨t, hadd⟩ : ∃ t, lone.timer.addJob
      { spec := .every (.ofMillis 300), callback := some fun _ => {} } default = .ok (0, t) :=
    ⟨_, rfl⟩
  have hlone : Reachable lone := ⟨_, _, opened_lone, .refl lone⟩
  have hp := hlone.leads (leads_addJob hadd)
  have hsize : t.queue.size = 1 := by
    cases hadd
    decide +kernel
  have hlater : (1 : Tick) < (t.reaped 1).queue.nextPriority := by
    cases hadd
    decide +kernel
  obtain ⟨hskip, hturn, -⟩ := Reachable.shortcut hp
  exact ⟨_, hp, hsize, hlater, (hskip 1 default _ (.inr (.inr rfl)) hlater).2, (hturn 1 default).2⟩

end Plant

end Metronome
