import Metronome.Proofs.Timer.Plant

/-!
# Where the jobs of a timer are

A job is in one place at a time: about to be queued, in the queue, or in the hand of the tick
thread. It is put into the first place when it is created, and it leaves the last one for good when
it is closed or when its schedule is exhausted. The threads work for jobs of the timer only, whose
accounts are sound at all times.

## Main definitions

* `Ticker.Goes` — the round of the tick thread
* `Plant.spots` — the number of places in which a job is
* `Plant.Orderly` — the threads work for jobs of the timer, each of which is in one place at most

## Main results

* `Plant.Step.goes` — the tick thread makes its round, whatever the others do
* `Plant.Step.passes` — what a step does to the places of a job
* `Plant.Run.orderly` — a timer is in order at all times
-/

namespace Metronome

/-- The round of the tick thread. -/
inductive Ticker.Goes : Ticker → Occasion → Ticker → Prop
  | stay (t : Ticker) (o : Occasion) : Goes t o t
  | begin (t : Ticker) (nothing : t.hand? = none) : Goes .idle .quiet t
  | take (sweep : Sweep) (id : JobId) :
      Goes (.busy sweep .taking) .quiet (.busy sweep (.looking id))
  | rest (sweep : Sweep) : Goes (.busy sweep .taking) .quiet .idle
  | skip (sweep : Sweep) (id : JobId) :
      Goes (.busy sweep (.looking id)) .quiet (.busy sweep .taking)
  | look (sweep : Sweep) (id : JobId) (advance : Advance) :
      Goes (.busy sweep (.looking id)) (.looked id advance) (.busy sweep (.deciding id advance))
  | capNext (sweep : Sweep) (id : JobId) (advance : Advance)
      (exhausted : advance.exhausted = true) :
      Goes (.busy sweep (.deciding id advance)) .quiet (.busy sweep (.capping id advance))
  | offerNext (sweep : Sweep) (id : JobId) (advance : Advance) (live : advance.exhausted = false) :
      Goes (.busy sweep (.deciding id advance)) .quiet (.busy sweep (.offering id advance))
  | withhold (sweep : Sweep) (id : JobId) (advance : Advance) :
      Goes (.busy sweep (.deciding id advance)) .quiet (.busy sweep (.settling id advance false))
  | cap (sweep : Sweep) (id : JobId) (advance : Advance) :
      Goes (.busy sweep (.capping id advance)) (.capped id) (.busy sweep (.offering id advance))
  | turnAway (sweep : Sweep) (id : JobId) (advance : Advance) :
      Goes (.busy sweep (.offering id advance)) (.offered id .refused)
        (.busy sweep (.settling id advance false))
  | check (sweep : Sweep) (id : JobId) (advance : Advance) :
      Goes (.busy sweep (.offering id advance)) .quiet (.busy sweep (.counting id advance))
  | count (sweep : Sweep) (id : JobId) (advance : Advance) (answer : Submission) :
      Goes (.busy sweep (.counting id advance)) (.offered id answer)
        (.busy sweep (.settling id advance (answer != .refused)))
  | requeue (sweep : Sweep) (id : JobId) (advance : Advance) (submitted : Bool)
      (live : advance.exhausted = false) :
      Goes (.busy sweep (.settling id advance submitted)) .quiet (.busy sweep .taking)
  | retire (sweep : Sweep) (id : JobId) (advance : Advance) (exhausted : advance.exhausted = true) :
      Goes (.busy sweep (.settling id advance false)) (.retired id) (.busy sweep .taking)
  | dismiss (sweep : Sweep) (id : JobId) (advance : Advance)
      (exhausted : advance.exhausted = true) :
      Goes (.busy sweep (.settling id advance true)) (.dismissed id) (.busy sweep .taking)

theorem Queue.places_retain_le {α : Type} [DecidableEq α] (q : Queue α) (keep : α → Bool) (v : α) :
    (q.retain keep).2.places v ≤ q.places v := by
  rw [places, contents_retain, places]
  exact Multiset.map_le_map (Multiset.filter_le_filter _ (Multiset.filter_le _ _))

theorem Queue.card_places_push {α : Type} [DecidableEq α] (q : Queue α) (w v : α) (tick : Tick) :
    ((q.push w tick).places v).card = (q.places v).card + if w = v then 1 else 0 := by
  by_cases h : w = v
  · subst h
    rw [places_push_self, Multiset.card_cons, if_pos rfl]
  · rw [places_push_of_ne h, if_neg h, Nat.add_zero]

theorem Queue.card_places_popDue {α : Type} [DecidableEq α] {q rest : Queue α} {limit : Tick}
    {e : Entry α} (h : q.popDue limit = some (e, rest)) (v : α) :
    (q.places v).card = (rest.places v).card + if e.value = v then 1 else 0 := by
  by_cases hv : e.value = v
  · subst hv
    rw [places_popDue_self h, Multiset.card_cons, if_pos rfl]
  · rw [places_popDue_of_ne h hv, if_neg hv, Nat.add_zero]

theorem Timer.places_reaped_le (t : Timer) (tick : Tick) (id : JobId) :
    (t.reaped tick).queue.places id ≤ t.queue.places id := by
  by_cases hasked : t.roster.reap = true
  · rw [reaped, reapIfAsked_of_asked (t := { t with ticks := tick }) hasked]
    exact Queue.places_retain_le _ _ _
  · rw [reaped, reapIfAsked_of_not_asked (t := { t with ticks := tick }) hasked]

/-- A job that has been closed is closed, whether or not there is such a job. -/
theorem Roster.isClosed_update_close (r : Roster) (id : JobId) :
    (r.update id Job.close).isClosed id = true := by
  rw [isClosed, get?_update, if_pos rfl, Option.all_map]
  cases r.get? id <;> rfl

namespace Plant

variable {p q : Plant} {id id' : JobId} {j : Job} {st : JobState} {o : Occasion}
  {os : List Occasion}

/-- The tick thread makes its round, whatever the others do. -/
theorem Step.goes (h : Step p o q) : p.ticker.Goes o q.ticker := by
  cases h with
  | tick tick now idle =>
    rw [idle]
    refine .begin _ ?_
    unfold tickOver
    dsimp only
    split <;> rfl
  | take sweep e queue taking => exact taking ▸ .take sweep e.value
  | rest sweep taking => exact taking ▸ .rest sweep
  | skip sweep id looking => exact looking ▸ .skip sweep id
  | look sweep id j looking => exact looking ▸ .look sweep id _
  | decide sweep id advance deciding =>
    rw [deciding]
    dsimp only
    unfold decided
    split
    · cases hexhausted : advance.exhausted with
      | true => exact .capNext sweep id advance hexhausted
      | false => exact .offerNext sweep id advance hexhausted
    · exact .withhold sweep id advance
  | cap sweep id advance capping => exact capping ▸ .cap sweep id advance
  | turnAway sweep id advance offering => exact offering ▸ .turnAway sweep id advance
  | check sweep id advance offering => exact offering ▸ .check sweep id advance
  | count sweep id advance counting => exact counting ▸ .count sweep id advance _
  | requeue sweep id advance submitted settling live =>
    exact settling ▸ .requeue sweep id advance submitted live
  | retire sweep id advance settling exhausted =>
    exact settling ▸ .retire sweep id advance exhausted
  | dismiss sweep id advance settling exhausted =>
    exact settling ▸ .dismiss sweep id advance exhausted
  | _ => exact .stay _ _

/-! ### Places -/

/-- The number of places in which a job is. -/
def spots (p : Plant) (id : JobId) : Nat :=
  (p.timer.queue.places id).card + (p.adding.map Prod.fst).count id +
    if p.ticker.hand? = some id then 1 else 0

theorem spots_of_hand (hhand : p.ticker.hand? = some id') (id : JobId) :
    p.spots id = (p.timer.queue.places id).card + (p.adding.map Prod.fst).count id +
      if id' = id then 1 else 0 := by
  simp only [spots, hhand, Option.some.injEq]

theorem spots_of_free (hfree : p.ticker.hand? = none) (id : JobId) :
    p.spots id = (p.timer.queue.places id).card + (p.adding.map Prod.fst).count id := by
  rw [spots, hfree]
  rfl

theorem hand_decided (p : Plant) (sweep : Sweep) (id : JobId) (advance : Advance) :
    (p.decided sweep id advance).hand? = some id := by
  unfold decided
  split
  · split <;> rfl
  · rfl

/-- A job leaves its last place when it is closed or left to the run that was handed over, or when
the queue of a closed timer is emptied. -/
def Leaves (p : Plant) (id : JobId) (o : Occasion) (q : Plant) : Prop :=
  q.roster.isClosed id = true ∨ o = .dismissed id ∨ p.closer = .draining

/-- A job that is created comes to its first place, and a job may leave its last one. -/
def Passes (p : Plant) (id : JobId) (o : Occasion) (q : Plant) : Prop :=
  ∃ gone, q.spots id + gone = p.spots id + (if o = .created id then 1 else 0) ∧
    (0 < gone → Leaves p id o q)

theorem passes_of_eq (heq : q.spots id = p.spots id) (ho : o ≠ .created id) : Passes p id o q :=
  ⟨0, by rw [if_neg ho, heq], fun h => absurd h (Nat.lt_irrefl 0)⟩

/-- No place is touched. -/
theorem passes_of_same (hqueue : q.timer.queue = p.timer.queue) (hadding : q.adding = p.adding)
    (hhand : q.ticker.hand? = p.ticker.hand?) (ho : o ≠ .created id) : Passes p id o q :=
  passes_of_eq (by rw [spots, hqueue, hadding, hhand, spots]) ho

/-- The visit of a job is over, and the job does not go back into the queue. -/
theorem passes_of_hand (hhand : p.ticker.hand? = some id') (hfree : q.ticker.hand? = none)
    (hqueue : q.timer.queue = p.timer.queue) (hadding : q.adding = p.adding)
    (ho : o ≠ .created id) (hleaves : id' = id → Leaves p id o q) : Passes p id o q := by
  refine ⟨if id' = id then 1 else 0, ?_, fun hgone => hleaves ?_⟩
  · rw [spots_of_free hfree, spots_of_hand hhand, hqueue, hadding, if_neg ho, Nat.add_zero]
  · by_contra hid
    rw [if_neg hid] at hgone
    exact absurd hgone (Nat.lt_irrefl 0)

theorem passes_tick (hp : p.timer.Orderly) (idle : p.ticker = .idle) (tick : Tick) (now : Instant)
    (id : JobId) : Passes p id .quiet (p.tickOver tick now) := by
  have hfree : (p.tickOver tick now).ticker.hand? = none := by
    unfold tickOver
    dsimp only
    split <;> rfl
  have hadding : (p.tickOver tick now).adding = p.adding := rfl
  have hqueue : (p.tickOver tick now).timer.queue = (p.timer.reaped tick).queue := rfl
  have hle := Multiset.card_le_card (p.timer.places_reaped_le tick id)
  refine ⟨(p.timer.queue.places id).card - ((p.timer.reaped tick).queue.places id).card, ?_,
    fun hgone => Or.inl ?_⟩
  · rw [spots_of_free hfree, spots_of_free (by rw [idle]; rfl), hadding, hqueue, if_neg (by simp)]
    omega
  · -- only a closed job is cleared out of the queue
    rw [Roster.isClosed, get?_tickOver]
    by_contra hopen
    rw [(hp.reaped tick).places id (Bool.eq_false_iff.mpr hopen), Nat.sub_self] at hgone
    exact absurd hgone (Nat.lt_irrefl 0)

/-- A step moves a job from one place to the next, save that it may leave the last one. -/
theorem Step.passes (h : Step p o q) (hp : p.timer.Orderly) (id : JobId) : Passes p id o q := by
  cases h with
  | work | switch | close | shut | clear | closeJob | finish =>
    exact passes_of_same rfl rfl rfl (by simp)
  | rest _ ticker | look _ _ _ ticker | cap _ _ _ ticker | turnAway _ _ _ ticker
  | check _ _ _ ticker | count _ _ _ ticker =>
    exact passes_of_same rfl rfl (by rw [ticker]; rfl) (by simp)
  | decide sweep id' advance deciding =>
    exact passes_of_same rfl rfl ((p.hand_decided sweep id' advance).trans (by rw [deciding]; rfl))
      (by simp)
  | create o now job =>
    refine ⟨0, ?_, fun h => absurd h (Nat.lt_irrefl 0)⟩
    have hadding : (List.map Prod.fst (((p.roster.add job).1, job.schedule.nextTick) ::
        p.adding)).count id = (p.adding.map Prod.fst).count id +
          if (p.roster.add job).1 = id then 1 else 0 := by
      rw [List.map_cons, List.count_cons]
      simp only [beq_iff_eq]
    have hhand : (p.withRoster (p.roster.add job).2).ticker = p.ticker := rfl
    have hqueue : (p.withRoster (p.roster.add job).2).timer.queue = p.timer.queue := rfl
    simp only [spots, hadding, hhand, hqueue, Occasion.created.injEq]
    omega
  | enlist before id' tick after created =>
    have hadding : (p.adding.map Prod.fst).count id =
        ((before ++ after).map Prod.fst).count id + if id' = id then 1 else 0 := by
      rw [created]
      simp only [List.map_append, List.map_cons, List.count_append, List.count_cons, beq_iff_eq]
      omega
    refine passes_of_eq ?_ (by simp)
    simp only [spots, hadding, Queue.card_places_push]
    omega
  | tick tick now idle => exact passes_tick hp idle tick now id
  | take sweep e queue taking due =>
    have hfree : p.ticker.hand? = none := by rw [taking]; rfl
    refine passes_of_eq ?_ (by simp)
    rw [spots_of_free hfree, Queue.card_places_popDue due, spots_of_hand rfl]
    dsimp only
    omega
  | skip sweep id' looking closed =>
    exact passes_of_hand (by rw [looking]; rfl) rfl rfl rfl (by simp) fun hid =>
      Or.inl (hid ▸ closed)
  | requeue sweep id' advance submitted settling =>
    have hhand : p.ticker.hand? = some id' := by rw [settling]; rfl
    refine passes_of_eq ?_ (by simp)
    rw [spots_of_hand hhand, spots_of_free rfl]
    dsimp only
    rw [Queue.card_places_push]
    omega
  | retire sweep id' advance settling =>
    exact passes_of_hand (by rw [settling]; rfl) rfl rfl rfl (by simp) fun hid =>
      Or.inl (hid ▸ Roster.isClosed_update_close _ _)
  | dismiss sweep id' advance settling =>
    exact passes_of_hand (by rw [settling]; rfl) rfl rfl rfl (by simp) fun hid =>
      Or.inr (Or.inl (congrArg _ hid))
  | drain draining =>
    refine ⟨(p.timer.queue.places id).card, ?_, fun _ => Or.inr (Or.inr draining)⟩
    have hqueue : (p.timer.queue.drain.2.places id).card = 0 := rfl
    simp only [spots, hqueue, reduceCtorEq, if_false]
    omega

/-! ### Jobs of the timer -/

/-- Jobs are never removed. -/
theorem Step.lt_size (h : Step p o q) (hid : id < p.roster.jobs.size) :
    id < q.roster.jobs.size := by
  obtain ⟨k, hk, -⟩ := h.calls (Array.getElem?_eq_getElem hid)
  exact (Array.getElem?_eq_some_iff.mp hk).1

theorem Run.lt_size (h : Run p os q) (hid : id < p.roster.jobs.size) : id < q.roster.jobs.size :=
  h.preserves (P := fun q => id < q.roster.jobs.size) (fun hstep hid => hstep.lt_size hid) hid

/-- A job is new exactly when it is created, and then it is the last one. -/
theorem Step.size_eq (h : Step p o q) :
    q.roster.jobs.size = p.roster.jobs.size ∧ (∀ id, o ≠ .created id) ∨
      o = .created p.roster.jobs.size ∧ q.roster.jobs.size = p.roster.jobs.size + 1 := by
  cases h with
  | work d s does => exact Or.inl ⟨does.step.effect.roster.size, nofun⟩
  | create o now job => exact Or.inr ⟨rfl, Array.size_push _⟩
  | tick tick now => exact Or.inl ⟨congrArg Array.size (p.tickOver_crew tick now).1, nofun⟩
  | look | cap | retire | closeJob => exact Or.inl ⟨Roster.size_update _ _ _, nofun⟩
  | count sweep id' => exact Or.inl ⟨(Runner.steady_enqueue _ id').roster.size, nofun⟩
  | clear => exact Or.inl ⟨(Runner.steady_dropLine _).roster.size, nofun⟩
  | _ => exact Or.inl ⟨rfl, nofun⟩

/-- A job that is not created was there before. -/
theorem Step.lt_size_of_ne (h : Step p o q) (hold : o ≠ .created id)
    (hid : id < q.roster.jobs.size) : id < p.roster.jobs.size := by
  obtain ⟨hsize, -⟩ | ⟨rfl, hsize⟩ := h.size_eq
  · exact hsize ▸ hid
  · have hne : id ≠ p.roster.jobs.size := fun heq => hold (congrArg _ heq.symm)
    exact Nat.lt_of_le_of_ne (Nat.le_of_lt_succ (Nat.lt_of_lt_of_eq hid hsize)) hne

/-- The threads work for jobs of the timer, each of which is in one place at most, and the accounts
of the jobs are sound. -/
structure Orderly (p : Plant) : Prop where
  line : p.shift.runner.line.Sound
  manned : p.shift.Manned
  queue : p.timer.Orderly
  adding : ∀ e ∈ p.adding, e.1 < p.roster.jobs.size
  ticker : ∀ id, p.ticker.hand? = some id → id < p.roster.jobs.size
  spots : ∀ id, p.spots id ≤ 1
  accounts : ∀ id st, p.roster.state? id = some st → (p.shift.account id st).Sound

theorem manned_of_same (hp : p.shift.Manned)
    (hsize : ∀ id < p.roster.jobs.size, id < q.roster.jobs.size)
    (hline : q.timer.crew.runner.line = p.timer.crew.runner.line)
    (hhand : q.dispatcher = p.dispatcher)
    (hwaiting : q.timer.crew.waiting = p.timer.crew.waiting)
    (hactive : q.timer.crew.active = p.timer.crew.active)
    (hlog : q.timer.crew.log = p.timer.crew.log) : q.shift.Manned := by
  refine { toKnown := ⟨fun id hid => hsize id (hp.line id ?_),
             fun id hid => hsize id (hp.hand id ?_)⟩,
           waiting := fun id hid => hsize id (hp.waiting id ?_),
           active := fun task htask => hsize _ (hp.active task ?_),
           log := fun entry hentry => hsize _ (hp.log entry ?_) }
  · exact hline ▸ hid
  · exact hhand ▸ hid
  · exact hwaiting ▸ hid
  · exact hactive ▸ htask
  · exact hlog ▸ hentry

theorem Step.manned (h : Step p o q) (hline : p.shift.runner.line.Sound) (hp : p.shift.Manned) :
    q.shift.Manned := by
  have hsize (id : JobId) (hid : id < p.roster.jobs.size) : id < q.roster.jobs.size := h.lt_size hid
  cases h with
  | work d s does => exact does.step.manned hline hp
  | tick tick now =>
    obtain ⟨-, hsame, hactive, hwaiting, hlog, -⟩ := p.tickOver_crew tick now
    exact manned_of_same hp hsize hsame rfl hwaiting hactive hlog
  | count sweep id' advance counting checked =>
    exact (Shift.Step.enqueue p.shift id' checked).manned hline hp
  | clear dropping closing idle => exact (Shift.Step.clear p.shift closing idle).manned hline hp
  | _ => exact manned_of_same hp hsize rfl rfl rfl rfl rfl

theorem Step.queue (h : Step p o q) (hp : p.Orderly) : q.timer.Orderly := by
  have hsize (id : JobId) (hid : id < p.roster.jobs.size) : id < q.roster.jobs.size := h.lt_size hid
  cases h with
  | enlist before id' tick after created =>
    refine ⟨hp.queue.wf.push _ _, fun e he => ?_⟩
    obtain hmem | rfl := Queue.mem_push.mp he
    · exact hp.queue.known e hmem
    · exact hp.adding (id', tick) (by rw [created]; simp)
  | tick tick now => exact (hp.queue.reaped tick).orderly
  | take sweep e queue taking due => exact (hp.queue.popDue due).1
  | requeue sweep id' advance submitted settling =>
    refine ⟨hp.queue.wf.push _ _, fun e he => ?_⟩
    obtain hmem | rfl := Queue.mem_push.mp he
    · exact hp.queue.known e hmem
    · exact hp.ticker id' (by rw [settling]; rfl)
  | drain => exact Timer.orderly_of_empty rfl
  | _ => exact ⟨hp.queue.wf, fun e he => hsize _ (hp.queue.known e he)⟩

theorem Step.adding (h : Step p o q) (hp : p.Orderly) :
    ∀ e ∈ q.adding, e.1 < q.roster.jobs.size := by
  have hsize (id : JobId) (hid : id < p.roster.jobs.size) : id < q.roster.jobs.size := h.lt_size hid
  cases h with
  | create o now job =>
    intro e he
    obtain rfl | hmem := List.mem_cons.mp he
    · exact Nat.lt_of_lt_of_eq (Nat.lt_succ_self _) (Array.size_push job).symm
    · exact hsize _ (hp.adding e hmem)
  | enlist before id' tick after created =>
    refine fun e he => hp.adding e ?_
    rw [created, List.mem_append, List.mem_cons]
    exact (List.mem_append.mp he).imp_right Or.inr
  | _ => exact fun e he => hsize _ (hp.adding e he)

theorem Step.hand (h : Step p o q) (hp : p.Orderly) (hid : q.ticker.hand? = some id) :
    id < q.roster.jobs.size := by
  have hsize (id : JobId) (hid : id < p.roster.jobs.size) : id < q.roster.jobs.size := h.lt_size hid
  -- the visited job is the one that has just left the queue, or it has been visited before
  cases h with
  | take sweep e queue taking due =>
    obtain rfl : e.value = id := Option.some.inj hid
    exact (hp.queue.popDue due).2
  | tick tick now =>
    unfold tickOver at hid
    dsimp only at hid
    split at hid <;> cases hid
  | decide sweep id' advance deciding =>
    obtain rfl : id' = id := Option.some.inj ((p.hand_decided sweep id' advance).symm.trans hid)
    exact hp.ticker id' (by rw [deciding]; rfl)
  | look sweep id' j looking => exact hsize id (hp.ticker id (by rw [looking]; exact hid))
  | cap sweep id' advance capping => exact hsize id (hp.ticker id (by rw [capping]; exact hid))
  | turnAway sweep id' advance offering => exact hp.ticker id (by rw [offering]; exact hid)
  | check sweep id' advance offering => exact hp.ticker id (by rw [offering]; exact hid)
  | count sweep id' advance counting =>
    exact hsize id (hp.ticker id (by rw [counting]; exact hid))
  | rest | skip | requeue | retire | dismiss => cases hid
  | _ => exact hsize id (hp.ticker id hid)

/-- A job that has not been created is nowhere. -/
theorem Orderly.spots_eq_zero (hp : p.Orderly) (hid : p.roster.jobs.size ≤ id) :
    p.spots id = 0 := by
  have hqueue : p.timer.queue.places id = 0 := by
    refine Multiset.eq_zero_of_forall_notMem fun tick htick => ?_
    exact absurd (hp.queue.known _ (Queue.mem_places.mp htick)) (Nat.not_lt.mpr hid)
  have hadding : (p.adding.map Prod.fst).count id = 0 := by
    refine List.count_eq_zero.mpr fun h => ?_
    obtain ⟨e, he, rfl⟩ := List.mem_map.mp h
    exact absurd (hp.adding e he) (Nat.not_lt.mpr hid)
  have hhand : p.ticker.hand? ≠ some id := fun h => absurd (hp.ticker id h) (Nat.not_lt.mpr hid)
  rw [Plant.spots, hqueue, hadding, if_neg hhand]
  rfl

theorem Step.spots_le (h : Step p o q) (hp : p.Orderly) (id : JobId) : q.spots id ≤ 1 := by
  obtain ⟨gone, heq, -⟩ := h.passes hp.queue id
  have hle := hp.spots id
  obtain ⟨-, hno⟩ | ⟨ho, -⟩ := h.size_eq
  · rw [if_neg (hno id)] at heq
    omega
  · by_cases hid : p.roster.jobs.size = id
    · have hzero := hp.spots_eq_zero (Nat.le_of_eq hid)
      split at heq <;> omega
    · rw [if_neg fun hcreated => hid (Occasion.created.inj (ho.symm.trans hcreated))] at heq
      omega

/-- A job that has just been created is not known to the runner. -/
theorem Step.account_eq (h : Step p o q) (hp : p.Orderly) (hnew : p.roster.jobs.size ≤ id)
    (hst : q.roster.state? id = some st) :
    q.shift.account id st = .untouched st.singleton st.isClosed := by
  have hid := Roster.exists_state?_iff.mp ⟨st, hst⟩
  obtain ⟨hsize, -⟩ | ⟨rfl, hsize⟩ := h.size_eq
  · exact absurd (hsize ▸ hid) (Nat.not_lt.mpr hnew)
  · obtain rfl : id = p.roster.jobs.size :=
      Nat.le_antisymm (Nat.le_of_lt_succ (Nat.lt_of_lt_of_eq hid hsize)) hnew
    cases h with
    | create o now job opened made =>
      have hget : (p.roster.add job).2.get? p.roster.jobs.size = some job :=
        Array.getElem?_push_size
      obtain rfl : job.state = st := by
        have hstate : (p.roster.add job).2.state? p.roster.jobs.size = some job.state :=
          congrArg (Option.map Job.state) hget
        exact Option.some.inj (hstate.symm.trans hst)
      refine (hp.manned.account_eq (Nat.le_refl _) job.state).trans ?_
      rw [Job.state_create made]
      rfl

theorem Step.accounts (h : Step p o q) (hp : p.Orderly) (hst : q.roster.state? id = some st) :
    (q.shift.account id st).Sound := by
  by_cases hid : id < p.roster.jobs.size
  · obtain ⟨st₀, hst₀⟩ := Roster.exists_state?_iff.mpr hid
    obtain ⟨st', hst', hmove⟩ := h.move hp.line hst₀
    obtain rfl : st' = st := Option.some.inj (hst'.symm.trans hst)
    exact hmove.sound (hp.accounts id st₀ hst₀)
  · rw [h.account_eq hp (Nat.not_lt.mp hid) hst]
    exact Account.sound_untouched _ _

theorem Step.orderly (h : Step p o q) (hp : p.Orderly) : q.Orderly where
  line := h.line_sound hp.line
  manned := h.manned hp.line hp.manned
  queue := h.queue hp
  adding := h.adding hp
  ticker _ hid := h.hand hp hid
  spots := h.spots_le hp
  accounts _ _ hst := h.accounts hp hst

theorem Run.orderly (h : Run p os q) (hp : p.Orderly) : q.Orderly :=
  h.preserves (P := Orderly) (fun hstep hp => hstep.orderly hp) hp

theorem Opened.crew (h : Opened p) :
    ∃ pool clock, p.timer.crew = { runner := { pool := pool }, clock := clock } := by
  obtain ⟨config, parallelism, now, hnew⟩ := h.timer
  unfold Timer.new at hnew
  split at hnew
  · cases hnew
  · rw [← Except.ok.inj hnew]
    exact ⟨_, _, rfl⟩

/-- A timer that has just been created has no jobs. -/
theorem Opened.size_eq_zero (h : Opened p) : p.roster.jobs.size = 0 := by
  obtain ⟨pool, clock, hcrew⟩ := h.crew
  rw [roster, Timer.roster, hcrew]
  rfl

theorem Opened.orderly (h : Opened p) : p.Orderly := by
  obtain ⟨pool, clock, hcrew⟩ := h.crew
  obtain ⟨config, parallelism, now, hnew⟩ := h.timer
  have hqueue := Timer.new_eq_ok hnew
  have hnone (id : JobId) : p.roster.state? id = none := by
    rw [roster, Timer.roster, hcrew]
    rfl
  constructor
  case line =>
    rw [shift, Shift.runner, hcrew]
    exact Line.sound_empty
  case manned =>
    rw [shift, h.floor, hcrew]
    constructor
    case toKnown => exact ⟨fun id hid => absurd hid List.not_mem_nil, fun id hid => by cases hid⟩
    case waiting => exact fun id hid => absurd hid List.not_mem_nil
    case active => exact fun task htask => absurd htask List.not_mem_nil
    case log => exact fun entry hentry => absurd hentry (Array.not_mem_empty entry)
  case queue => exact Timer.orderly_of_empty hqueue
  case adding =>
    rw [h.adding]
    exact fun e he => absurd he List.not_mem_nil
  case ticker =>
    rw [h.ticker]
    exact fun id hid => by cases hid
  case spots =>
    intro id
    rw [Plant.spots, hqueue, h.adding, h.ticker]
    exact Nat.zero_le 1
  case accounts =>
    intro id st hst
    rw [hnone] at hst
    cases hst

/-- A state that a timer can come to. -/
def Reachable (p : Plant) : Prop := ∃ start os, Opened start ∧ Run start os p

theorem Reachable.run (h : Reachable p) (hrun : Run p os q) : Reachable q := by
  obtain ⟨start, es, hopened, hrun'⟩ := h
  exact ⟨start, es ++ os, hopened, hrun'.append hrun⟩

theorem Reachable.orderly (h : Reachable p) : p.Orderly := by
  obtain ⟨start, os, hopened, hrun⟩ := h
  exact Run.orderly hrun hopened.orderly

/-! ### Accounts in the course of time -/

/-- Every run is a course of moves for each job that was there before. -/
theorem Run.exists_moves (h : Run p os q) (hp : p.Orderly) (hst : p.roster.state? id = some st) :
    ∃ st', q.roster.state? id = some st' ∧
      Account.Moves id (p.shift.account id st) (os.map Occasion.event)
        (q.shift.account id st') := by
  induction h with
  | refl => exact ⟨st, hst, .refl _⟩
  | snoc hrun hstep ih =>
    obtain ⟨st', hst', hmoves⟩ := ih
    obtain ⟨st'', hst'', hmove⟩ := hstep.move (Run.orderly hrun hp).line hst'
    refine ⟨st'', hst'', ?_⟩
    rw [List.map_append]
    exact hmoves.snoc hmove

/-- Whatever is there and was not, has been created meanwhile. -/
theorem Run.exists_created (h : Run p os q) (hnew : p.roster.jobs.size ≤ id)
    (hid : id < q.roster.jobs.size) :
    ∃ es fs r s, os = es ++ .created id :: fs ∧ Run p es r ∧ r.roster.jobs.size ≤ id ∧
      Step r (.created id) s ∧ Run s fs q := by
  induction h with
  | refl => exact absurd hid (Nat.not_lt.mpr hnew)
  | @snoc q t os o hrun hstep ih =>
    by_cases hold : id < q.roster.jobs.size
    · obtain ⟨es, fs, r, s, rfl, hbefore, hr, hcreated, hafter⟩ := ih hold
      exact ⟨es, fs ++ [o], r, s, by simp, hbefore, hr, hcreated, hafter.snoc hstep⟩
    · obtain rfl : o = .created id := by
        by_contra hne
        exact hold (hstep.lt_size_of_ne hne hid)
      exact ⟨os, [], q, t, rfl, hrun, Nat.not_lt.mp hold, hstep, .refl t⟩

theorem Step.lt_size_of_created (h : Step p (.created id) q) : id < q.roster.jobs.size := by
  obtain ⟨-, hno⟩ | ⟨hcreated, hsize⟩ := h.size_eq
  · exact absurd rfl (hno id)
  · rw [hsize, Occasion.created.inj hcreated]
    exact Nat.lt_succ_self _

/-- What is completed was a run of a job of the timer. -/
theorem Step.lt_size_of_completed (h : Step p o q) (hp : p.Orderly)
    (ho : o.event = .completed id) : id < p.roster.jobs.size := by
  cases h with
  | work d s does => exact hp.manned.lt_size_of_completed does.step ho
  | _ => cases ho

theorem Run.completed_not_mem (h : Run p os q) (hp : p.Orderly) (hid : q.roster.jobs.size ≤ id) :
    .completed id ∉ os.map Occasion.event := by
  induction h with
  | refl => exact List.not_mem_nil
  | snoc hrun hstep ih =>
    have hbefore := Nat.not_lt.mp fun hlt => Nat.not_lt.mpr hid (hstep.lt_size hlt)
    rw [List.map_append, List.mem_append]
    rintro (hmem | hmem)
    · exact ih hbefore hmem
    · have ho := (List.mem_singleton.mp hmem).symm
      exact Nat.not_lt.mpr hbefore (hstep.lt_size_of_completed (Run.orderly hrun hp) ho)

/-- The triggers of a job can be counted if those of the whole life of the timer can. -/
theorem Run.fits {es : List Occasion} {fs : List Event} (h : Run p es q) (hp : Opened p)
    (hst : q.roster.state? id = some st)
    (hfits : st.singleton = true ∨ Event.Within id (es.map Occasion.event ++ fs)) :
    ∃ n, Account.Fits id (q.shift.account id st) n fs := by
  have hid := Roster.exists_state?_iff.mp ⟨st, hst⟩
  obtain ⟨bs, cs, r, s, rfl, hbefore, hr, hcreated, hafter⟩ :=
    Run.exists_created h (hp.size_eq_zero ▸ Nat.zero_le id) hid
  have hordered := Run.orderly hbefore hp.orderly
  obtain ⟨st₀, hst₀⟩ := Roster.exists_state?_iff.mpr hcreated.lt_size_of_created
  obtain ⟨st', hst', hmoves⟩ := Run.exists_moves hafter (hcreated.orderly hordered) hst₀
  obtain rfl : st' = st := Option.some.inj (hst'.symm.trans hst)
  have hsingle : st'.singleton = st₀.singleton := Account.Moves.singleton_eq hmoves
  rw [hcreated.account_eq hordered hr hst₀] at hmoves
  refine ⟨_, Account.Moves.fits hmoves (Account.fits_untouched ?_)⟩
  refine hfits.imp (fun single => hsingle ▸ single) fun hwithin => ?_
  -- nothing was completed before the job was created
  have hnone := Run.completed_not_mem hbefore hp.orderly hr
  rw [List.map_append, List.map_cons, List.append_assoc, List.cons_append,
    ← List.singleton_append, ← List.append_assoc] at hwithin
  refine Event.within_of_append hwithin fun hmem => ?_
  obtain hmem | hmem := List.mem_append.mp hmem
  · exact hnone hmem
  · cases List.mem_singleton.mp hmem

end Plant

end Metronome
