import Mathlib.Algebra.BigOperators.Fin
import Mathlib.Algebra.Order.BigOperators.Group.Finset
import Metronome.Proofs.Runner.Refusal

/-!
# Passes of the dispatch thread

In one pass, the dispatch thread hands jobs from the line to the pool while it has room. A job with
further triggers goes to the end of the line and comes up again in the same pass, and a closed job
leaves the line without taking a place in the pool. Each turn is therefore one of those that the
jobs in line take, so that the pass ends. It ends with an empty line or a full pool, and as many
runs as are asked for and find room have been admitted.

A pass is made of turns that follow one another. What a turn does is said in a form that can be put
together, and what holds of all turns holds of the pass.

## Main definitions

* `JobState.demand`, `Runner.demand` — the runs that the jobs in line ask for
* `JobState.turns`, `Runner.turns` — the turns that they take
* `Runner.Backed` — open jobs in line have triggers, and singletons have one at most
* `Runner.Treated`, `Runner.Served` — what has become of a job, and of all of them, when some runs
  were admitted in turn
* `Runner.Taken` — what has happened when an open job was taken from the line

## Main results

* `Runner.turns_le_workload` — the bound on the turns of a pass is large enough
* `Runner.Backed.turn` — each turn ends the pass or is one of those that the jobs in line take
* `Runner.Backed.pass` — the pass ends, whatever the bound on the number of its turns
* `Shift.Bookkeeping.fills_pool` — what a pass does, for any jobs in line and any room
-/

namespace Metronome

theorem Pool.freeSlots_admit {p : Pool} (h : p.freeSlots ≠ 0) (hlimit : p.limit ≠ 0) :
    Pool.freeSlots { p with inFlight := p.inFlight + 1, waiting := p.waiting + 1 } + 1 =
      p.freeSlots := by
  unfold freeSlots at h ⊢
  cases hclosed : p.closed with
  | true => simp [hclosed] at h
  | false =>
    simp only [hclosed, hlimit, Bool.false_eq_true, if_false] at h ⊢
    omega

/-- What is taken from a counter that tells as much leaves the rest. -/
theorem Counter.toInt_sub_of_le {x : Int32} {n : Nat} (h : n ≤ x.toNatClampNeg) :
    (x - .ofNat n).toInt = x.toInt - n := by
  have hlow := x.le_toInt
  rw [Int32.toNatClampNeg] at h
  exact toInt_sub_ofNat (by omega)

namespace JobState

variable {s : JobState}

/-- The runs that a job in line asks for: a singleton has one run at a time, and a closed job none
at all. -/
def demand (s : JobState) : Nat :=
  -- the second trigger of a singleton would have been coalesced
  if s.isClosed then 0 else if s.singleton then 1 else s.pending.toNatClampNeg

/-- The turns that a job in line takes: one for each run, and one to drop a closed job. -/
def turns (s : JobState) : Nat := if s.isClosed then 1 else s.demand

theorem demand_of_open (h : s.isClosed = false) :
    s.demand = if s.singleton then 1 else s.pending.toNatClampNeg := by
  rw [demand, if_neg (Bool.eq_false_iff.mp h)]

theorem turns_of_open (h : s.isClosed = false) : s.turns = s.demand :=
  if_neg (Bool.eq_false_iff.mp h)

theorem demand_of_closed (h : s.isClosed = true) : s.demand = 0 := if_pos h

theorem turns_of_closed (h : s.isClosed = true) : s.turns = 1 := if_pos h

/-- The first of the runs that a job asks for is admitted, and the others are still asked for. -/
theorem demand_launch (h : s.isClosed = false) (hone : 1 ≤ s.pending) :
    (if s.singleton = false ∧ 1 < s.pending then ((s.addPending (-1)).addRunning 1).demand else 0) +
      1 = s.demand := by
  have hasked : 1 ≤ s.pending.toInt := Int32.le_iff_toInt_le.mp hone
  have hless := Counter.toInt_sub_one (x := s.pending) (by omega)
  have hopen : ((s.addPending (-1)).addRunning 1).isClosed = false := s.isClosed_launch.trans h
  rw [demand_of_open hopen, demand_of_open h, launch_eq]
  cases hsingle : s.singleton with
  | true => rfl
  | false =>
    simp only [true_and, Bool.false_eq_true, if_false, Int32.toNatClampNeg, hless]
    split
    · omega
    · next hlast =>
      have hle : s.pending.toInt ≤ 1 := Int32.le_iff_toInt_le.mp (Int32.not_lt.mp hlast)
      omega

/-- Each turn but the first is for a trigger that is left when one has been taken. -/
theorem turns_le (s : JobState) : s.turns ≤ 1 + (s.pending - 1).toNatClampNeg := by
  unfold turns demand
  split
  · exact Nat.le_add_right _ _
  · split
    · exact Nat.le_add_right _ _
    · by_cases hasked : 1 ≤ s.pending.toInt
      · rw [Int32.toNatClampNeg, Int32.toNatClampNeg, Counter.toInt_sub_one (by omega)]
        omega
      · rw [Int32.toNatClampNeg]
        omega

end JobState

namespace Runner

variable {r r' r'' : Runner} {id other : JobId} {st : JobState} {ids ids' : List JobId}

/-! ### What is asked for -/

/-- What the jobs in line add up to. -/
def total (r : Runner) (g : Option JobState → Nat) : Nat :=
  (r.line.order.map fun id => g (r.roster.state? id)).sum

/-- The runs that the jobs in line ask for. -/
def demand (r : Runner) : Nat := r.total (·.elim 0 JobState.demand)

/-- The turns that the jobs in line take. -/
def turns (r : Runner) : Nat := r.total (·.elim 1 JobState.turns)

/-- Open jobs in line have triggers, and singletons have one at most. -/
structure Backed (r : Runner) : Prop where
  line : r.line.Sound
  asked : ∀ id st, r.roster.state? id = some st → id ∈ r.line.order → st.isClosed = false →
    1 ≤ st.pending
  single : ∀ id st, r.roster.state? id = some st → st.singleton = true → st.pending ≤ 1

/-- What the jobs in line add up to is the first one and those behind it. -/
theorem total_of_head {g : Option JobState → Nat} {order : List JobId}
    (hhead : r.line.order = id :: order) (hout : id ∉ order)
    (hothers : ∀ other, id ≠ other → r'.roster.state? other = r.roster.state? other) :
    r.total g =
      g (r.roster.state? id) + (order.map fun other => g (r'.roster.state? other)).sum := by
  rw [total, hhead, List.map_cons, List.sum_cons]
  refine congrArg (g (r.roster.state? id) + List.sum ·) (List.map_congr_left fun other hmem => ?_)
  rw [hothers other fun heq => hout (heq ▸ hmem)]

/-- The bound on the turns of a pass counts every job in line and every trigger that is left when
one has been taken. -/
theorem turns_le_workload (h : r.line.Sound) : r.turns ≤ r.workload := by
  -- the sum over the line is a part of the sum over all jobs, since no job is in line twice
  let f (j : Job) : Nat := (j.state.pending - 1).toNatClampNeg
  let g (id : JobId) : Nat := (r.roster.get? id).elim 0 f
  have hworkload : r.workload = r.line.size + (r.roster.jobs.toList.map f).sum := by
    have hfold : (r.roster.jobs.toList.map f).foldl (· + ·) (r.line.size + 0) =
        r.line.size + (r.roster.jobs.toList.map f).foldl (· + ·) 0 := List.foldl_assoc
    rw [List.foldl_map, Nat.add_zero, ← List.sum_eq_foldl] at hfold
    rw [workload, ← Array.foldl_toList]
    exact hfold
  have hle (id : JobId) : (r.roster.state? id).elim 1 JobState.turns ≤ 1 + g id := by
    unfold Roster.state? g
    cases r.roster.get? id with
    | none => exact Nat.le_refl _
    | some j => exact j.state.turns_le
  -- a number without a job counts for nothing
  have hout (id : JobId) (hg : g id ≠ 0) : id ∈ Finset.range r.roster.jobs.size := by
    by_contra hid
    rw [Finset.mem_range, Nat.not_lt] at hid
    exact hg (by simp [g, Roster.get?, hid])
  have hall : ∑ id ∈ Finset.range r.roster.jobs.size, g id = (r.roster.jobs.toList.map f).sum := by
    rw [Finset.sum_range, ← Fin.sum_univ_fun_getElem]
    refine Finset.sum_congr rfl fun i _ => ?_
    simp [g, Roster.get?]
  have hline : (r.line.order.map g).sum ≤ (r.roster.jobs.toList.map f).sum :=
    calc (r.line.order.map g).sum
      _ = ∑ id ∈ r.line.order.toFinset, g id := (List.sum_toFinset g h.nodup).symm
      _ ≤ ∑ id ∈ Finset.range r.roster.jobs.size, g id :=
          Finset.sum_le_sum_of_ne_zero fun id _ => hout id
      _ = (r.roster.jobs.toList.map f).sum := hall
  calc r.turns
    _ ≤ (r.line.order.map fun id => 1 + g id).sum := List.sum_le_sum fun id _ => hle id
    _ = r.line.size + (r.line.order.map g).sum := by simp [List.sum_map_add, Line.size]
    _ ≤ r.workload := hworkload ▸ Nat.add_le_add_left hline _

/-! ### Turns -/

/-- So many runs of a job were admitted, or it is closed and may have left the line. Nothing else
has happened to it. -/
structure Treated (r : Runner) (id : JobId) (n : Nat) (r' : Runner) : Prop where
  line : id ∈ r'.line.order → id ∈ r.line.order
  isClosed : r'.roster.isClosed id = r.roster.isClosed id
  admitted : n ≠ 0 → id ∈ r.line.order ∧ r.roster.isClosed id = false
  /-- No more runs were admitted than there were triggers. -/
  asked : ∀ st, r.roster.state? id = some st → st.isClosed = false → n ≤ st.pending.toNatClampNeg
  opened : ∀ st, r.roster.state? id = some st → st.isClosed = false →
    r'.roster.state? id =
      some { st with pending := st.pending - .ofNat n, running := st.running + .ofNat n }
  closed : ∀ st, r.roster.state? id = some st → st.isClosed = true →
    r'.roster.state? id =
      some (if id ∈ r.line.order ∧ id ∉ r'.line.order then st.clearPending else st)

theorem Alike.treated (h : Alike id r r') : Treated r id 0 r' where
  line := h.line.mp
  isClosed := by rw [Roster.isClosed_eq, h.state, ← Roster.isClosed_eq]
  admitted hne := absurd rfl hne
  asked _ _ _ := Nat.zero_le _
  opened st hst _ := by simp [h.state, hst]
  closed st hst _ := by rw [h.state, hst, if_neg fun hand => hand.2 (h.line.mpr hand.1)]

theorem Treated.trans {m n : Nat} (h : Treated r id m r') (h' : Treated r' id n r'') :
    Treated r id (m + n) r'' where
  line hid := h.line (h'.line hid)
  isClosed := h'.isClosed.trans h.isClosed
  admitted hne := by
    by_cases hm : m = 0
    · obtain ⟨hmem, hopen⟩ := h'.admitted (by omega)
      exact ⟨h.line hmem, h.isClosed.symm.trans hopen⟩
    · exact h.admitted hm
  asked st hst hopen := by
    have hfirst := h.asked st hst hopen
    have hrest := h'.asked _ (h.opened st hst hopen) hopen
    rw [Int32.toNatClampNeg, Counter.toInt_sub_of_le hfirst] at hrest
    rw [Int32.toNatClampNeg] at hfirst ⊢
    omega
  opened st hst hopen := by
    rw [h'.opened _ (h.opened st hst hopen) hopen]
    simp only [Int32.ofNat_add, Int32.add_assoc, Int32.sub_sub]
  closed st hst hclosed := by
    have hmid : (if id ∈ r.line.order ∧ id ∉ r'.line.order then st.clearPending
        else st).isClosed = true := by
      split <;> exact hclosed
    rw [h'.closed _ (h.closed st hst hclosed) hmid]
    -- nobody comes into line, so a job that leaves it does so in one of the two parts
    by_cases hin : id ∈ r'.line.order
    · simp [h.line hin, hin]
    · simp [hin, mt h'.line hin]

/-- The runs of some jobs were admitted in turn, and closed jobs may have left the line. -/
structure Served (r : Runner) (ids : List JobId) (r' : Runner) : Prop where
  job : ∀ id, Treated r id (ids.count id) r'
  /-- What was admitted is no longer asked for. -/
  demand : r'.demand + ids.length = r.demand
  /-- What was admitted takes room, if room is limited. -/
  slots : r.pool.limit ≠ 0 → r'.pool.freeSlots + ids.length = r.pool.freeSlots
  limit : r'.pool.limit = r.pool.limit
  pool : r'.pool.closed = r.pool.closed
  runner : r'.closed = r.closed

theorem Served.refl (r : Runner) : Served r [] r where
  job _ := Alike.treated ⟨rfl, Iff.rfl⟩
  demand := rfl
  slots _ := rfl
  limit := rfl
  pool := rfl
  runner := rfl

theorem Served.trans (h : Served r ids r') (h' : Served r' ids' r'') :
    Served r (ids ++ ids') r'' where
  job id := by
    rw [List.count_append]
    exact (h.job id).trans (h'.job id)
  demand := by
    rw [List.length_append, ← h.demand, ← h'.demand]
    omega
  slots hlimit := by
    rw [List.length_append, ← h.slots hlimit, ← h'.slots (h.limit ▸ hlimit)]
    omega
  limit := h'.limit.trans h.limit
  pool := h'.pool.trans h.pool
  runner := h'.runner.trans h.runner

/-- Whoever treats one job and leaves the others alone keeps the line backed, if it is right about
this job. -/
theorem Backed.of_alike (h : r.Backed) (hline : r'.line.Sound)
    (hothers : ∀ other, id ≠ other → Alike other r r')
    (hself : ∀ st, r'.roster.state? id = some st →
      (id ∈ r'.line.order → st.isClosed = false → 1 ≤ st.pending) ∧
      (st.singleton = true → st.pending ≤ 1)) : r'.Backed := by
  refine ⟨hline, fun other st hst hmem hopen => ?_, fun other st hst hsingle => ?_⟩
  · by_cases hid : id = other
    · subst hid
      exact (hself st hst).1 hmem hopen
    · have halike := hothers other hid
      exact h.asked other st (halike.state ▸ hst) (halike.line.mp hmem) hopen
  · by_cases hid : id = other
    · subst hid
      exact (hself st hst).2 hsingle
    · exact h.single other st ((hothers other hid).state ▸ hst) hsingle

theorem pop_of_dropped (hpop : r.pop = (.dropped id, r')) :
    ∃ line, r.line.popFront = some (id, line) ∧ r.roster.isClosed id = true ∧
      r' = { r with line := line }.updateState id (·.clearPending) := by
  obtain heq | ⟨id', line, hline, ⟨hclosed, heq⟩ | ⟨st, -, -, heq⟩⟩ := r.pop_cases
  · cases heq.symm.trans hpop
  · cases heq.symm.trans hpop
    exact ⟨line, hline, hclosed, rfl⟩
  · cases heq.symm.trans hpop

/-- A closed job at the head of the line leaves it, and its triggers are dropped. -/
theorem Backed.dropped (h : r.Backed) (hpop : r.pop = (.dropped id, r')) :
    Served r [] r' ∧ r'.Backed ∧ r'.turns + 1 = r.turns := by
  obtain ⟨line, hline, hclosed, hr'⟩ := pop_of_dropped hpop
  have horder := Line.order_of_popFront hline
  have hout : id ∉ line.order := fun hmem => ((h.line.mem_popFront hline).mp hmem).1 rfl
  have hrest : r'.line = line := hr' ▸ rfl
  have hothers (other : JobId) (hne : id ≠ other) : Alike other r r' :=
    hr' ▸ (alike_popFront h.line hline hne).trans (alike_updateState hne _)
  have hself : r'.roster.state? id = (r.roster.state? id).map (·.clearPending) := by
    rw [hr', updateState, Roster.state?_updateState, if_pos rfl]
  have htotal (g : Option JobState → Nat) : r.total g = g (r.roster.state? id) + r'.total g := by
    rw [total_of_head horder hout fun other hne => (hothers other hne).state, total, hrest]
  -- a closed job asks for nothing, and a number without a job is as good as one
  have hhead : (r.roster.state? id).elim 0 JobState.demand = 0 ∧
      (r.roster.state? id).elim 1 JobState.turns = 1 := by
    rw [Roster.isClosed_eq] at hclosed
    cases hst : r.roster.state? id with
    | none => exact ⟨rfl, rfl⟩
    | some st =>
      rw [hst, Option.all_some] at hclosed
      exact ⟨JobState.demand_of_closed hclosed, JobState.turns_of_closed hclosed⟩
  refine ⟨⟨fun other => ?_, ?_, fun _ => hr' ▸ rfl, hr' ▸ rfl, hr' ▸ rfl, hr' ▸ rfl⟩, ?_, ?_⟩
  · by_cases hid : id = other
    · subst hid
      constructor
      · exact fun hmem => absurd (hrest ▸ hmem) hout
      · exact hr' ▸ isClosed_updateState (f := (·.clearPending)) (fun _ => rfl) _ _ _
      · exact fun hne => absurd List.count_nil hne
      · exact fun _ _ _ => Nat.zero_le _
      · intro st hst hopen
        rw [Roster.isClosed_of_state? hst, hopen] at hclosed
        cases hclosed
      · intro st hst _
        rw [hself, hst, hrest, horder, if_pos ⟨List.mem_cons_self, hout⟩, Option.map_some]
    · exact (hothers other hid).treated
  · rw [demand, demand, htotal, hhead.1, Nat.zero_add, List.length_nil, Nat.add_zero]
  · refine h.of_alike (hrest ▸ h.line.popFront hline) hothers fun st hst => ⟨fun hmem => ?_, ?_⟩
    · exact absurd (hrest ▸ hmem) hout
    · rw [hself] at hst
      obtain ⟨st', -, rfl⟩ := Option.map_eq_some_iff.mp hst
      exact fun _ => show (0 : Int32) ≤ 1 by decide
  · rw [turns, turns, htotal, hhead.2, Nat.add_comm]

/-- What has happened when an open job was taken from the line. -/
structure Taken (r : Runner) (id : JobId) (st : JobState) (rest : List JobId) (r' : Runner) :
    Prop where
  state : r.roster.state? id = some st
  opened : st.isClosed = false
  asked : 1 ≤ st.pending
  launched : r'.roster.state? id = some ((st.addPending (-1)).addRunning 1)
  others : ∀ other, id ≠ other → Alike other r r'
  head : r.line.order = id :: rest
  out : id ∉ rest
  order : r'.line.order =
    if st.singleton = false ∧ 1 < st.pending then rest ++ [id] else rest
  sound : r'.line.Sound
  pool : r'.pool = r.pool
  runner : r'.closed = r.closed

theorem Backed.taken_of_pop (h : r.Backed) (hpop : r.pop = (.taken id, r')) :
    ∃ st rest, Taken r id st rest r' := by
  obtain heq | ⟨id', line, hline, ⟨-, heq⟩ | ⟨st, hst, hopen, heq⟩⟩ := r.pop_cases
  · cases heq.symm.trans hpop
  · cases heq.symm.trans hpop
  · obtain ⟨hid, hr'⟩ := Prod.mk.inj (heq.symm.trans hpop)
    cases hid
    have hrest := h.line.popFront hline
    have horder := Line.order_of_popFront hline
    have hout : id ∉ line.order := fun hin => ((h.line.mem_popFront hline).mp hin).1 rfl
    have hone := h.asked id st hst (horder ▸ List.mem_cons_self) hopen
    simp only [JobState.goesOn_iff hone] at hr'
    refine ⟨st, line.order, hst, hopen, hone, ?_, fun other hne => ?_, horder, hout, ?_, ?_, ?_, ?_⟩
    · rw [← hr']
      split <;> exact state?_launch hst line
    · have hlaunch := alike_launch h.line hline hne
      rw [← hr']
      split
      · exact hlaunch.trans (alike_pushBack hrest hne)
      · exact hlaunch
    · rw [← hr']
      split
      · exact Line.order_pushBack hrest hout
      · rfl
    · have hpopped := sound_pop h.line
      rwa [hpop] at hpopped
    all_goals
      rw [← hr']
      split <;> rfl

namespace Taken

variable {rest : List JobId}

theorem mem (h : Taken r id st rest r') : id ∈ r.line.order := h.head ▸ List.mem_cons_self

theorem treated (h : Taken r id st rest r') (other : JobId) :
    Treated r other ([id].count other) r' := by
  by_cases hid : id = other
  · subst hid
    rw [List.count_singleton_self]
    have hopen := (Roster.isClosed_of_state? h.state).trans h.opened
    constructor
    · exact fun _ => h.mem
    · rw [Roster.isClosed_of_state? h.launched, Roster.isClosed_of_state? h.state,
        st.isClosed_launch]
    · exact fun _ => ⟨h.mem, hopen⟩
    · intro st' hst' _
      cases h.state.symm.trans hst'
      have hasked : 1 ≤ st.pending.toInt := Int32.le_iff_toInt_le.mp h.asked
      rw [Int32.toNatClampNeg]
      omega
    · intro st' hst' _
      cases h.state.symm.trans hst'
      rw [h.launched, JobState.launch_eq, Counter.ofNat_one]
    · intro st' hst' hclosed
      rw [← Roster.isClosed_of_state? hst', hopen] at hclosed
      cases hclosed
  · rw [List.count_singleton, if_neg (by simpa using hid)]
    exact (h.others other hid).treated

/-- The run that is admitted is no longer asked for, in whatever way this is counted. -/
theorem total (h : Taken r id st rest r') {g : Option JobState → Nat}
    (hg : ∀ s : JobState, s.isClosed = false → g (some s) = s.demand) :
    r'.total g + 1 = r.total g := by
  have hopen : ((st.addPending (-1)).addRunning 1).isClosed = false :=
    st.isClosed_launch.trans h.opened
  rw [total_of_head h.head h.out fun other hne => (h.others other hne).state, h.state,
    hg st h.opened, ← JobState.demand_launch h.opened h.asked, ← hg _ hopen, ← h.launched,
    Runner.total, h.order]
  split
  · rw [List.map_append, List.sum_append, List.map_singleton, List.sum_singleton]
    omega
  · omega

theorem backed (h : Taken r id st rest r') (hr : r.Backed) : r'.Backed := by
  refine hr.of_alike h.sound h.others fun st' hst' => ?_
  have hasked : 1 ≤ st.pending.toInt := Int32.le_iff_toInt_le.mp h.asked
  have hless := Counter.toInt_sub_one (x := st.pending) (by omega)
  have hlaunched := h.launched
  rw [JobState.launch_eq] at hlaunched
  -- the job is still in line only if a further trigger is left
  cases hlaunched.symm.trans hst'
  refine ⟨fun hin _ => ?_, fun hsingle => ?_⟩
  · rw [h.order] at hin
    split at hin
    · next hagain =>
      have hmore : 1 < st.pending.toInt := Int32.lt_iff_toInt_lt.mp hagain.2
      rw [Int32.le_iff_toInt_le, hless, Int32.toInt_one]
      omega
    · exact absurd hin h.out
  · have hle : st.pending.toInt ≤ 1 :=
      Int32.le_iff_toInt_le.mp (hr.single id st h.state hsingle)
    rw [Int32.le_iff_toInt_le, hless, Int32.toInt_one]
    omega

end Taken

/-- An open job at the head of the line is handed to the pool, if there is room. It goes to the end
of the line if it has further triggers. -/
theorem Backed.taken (h : r.Backed) (hpop : r.pop = (.taken id, r'))
    (hfree : r.pool.freeSlots ≠ 0) :
    ∃ pool, r'.pool.submit = .ok pool ∧ Served r [id] (r'.grant pool) ∧ (r'.grant pool).Backed ∧
      (r'.grant pool).turns + 1 = r.turns := by
  obtain ⟨st, rest, htaken⟩ := h.taken_of_pop hpop
  -- the room that was seen is still there, since the pop leaves the pool alone
  have hfree' : r'.pool.freeSlots ≠ 0 := htaken.pool ▸ hfree
  have hlimit : r'.pool.limit = r.pool.limit := congrArg Pool.limit htaken.pool
  have hclosed : r'.pool.closed = r.pool.closed := congrArg Pool.closed htaken.pool
  refine ⟨_, Pool.submit_of_free hfree', ?_, { htaken.backed h with },
    htaken.total (g := (·.elim 1 JobState.turns)) fun _ => JobState.turns_of_open⟩
  exact
    { job := fun other => { htaken.treated other with }
      demand := htaken.total (g := (·.elim 0 JobState.demand)) fun _ _ => rfl
      slots := fun hlimited =>
        (Pool.freeSlots_admit hfree' (hlimit ▸ hlimited)).trans
          (congrArg Pool.freeSlots htaken.pool)
      limit := hlimit
      pool := hclosed
      runner := htaken.runner }

/-! ### Passes -/

/-- A turn ends the pass, or else it is one of those that the jobs in line take. -/
theorem Backed.turn (h : r.Backed) (opened : r.closed = false) (now : Instant) :
    ((r.line.order = [] ∨ r.pool.freeSlots = 0) ∧ ∀ fuel, r.dispatchFuel now fuel = ([], r)) ∨
      ∃ ids r', Served r ids r' ∧ r'.Backed ∧ r'.turns + 1 = r.turns ∧
        ∀ fuel, r.dispatchFuel now (fuel + 1) =
          (ids ++ (r'.dispatchFuel now fuel).1, (r'.dispatchFuel now fuel).2) := by
  by_cases hfree : r.pool.freeSlots = 0
  · refine Or.inl ⟨Or.inr hfree, fun fuel => ?_⟩
    cases fuel with
    | zero => rfl
    | succ fuel => rw [dispatchFuel, if_pos (by simp [hfree])]
  · have hgo : ¬ (decide (r.pool.freeSlots = 0) || r.closed) = true := by simp [hfree, opened]
    cases hpop : r.pop with
    | mk popped r' =>
      cases popped with
      | nothing =>
        have hnothing : r.pop.1 = .nothing := by rw [hpop]
        refine Or.inl ⟨Or.inl (pop_eq_nothing_iff.mp hnothing), fun fuel => ?_⟩
        cases fuel with
        | zero => rfl
        | succ fuel => rw [dispatchFuel, if_neg hgo, pop_of_nothing hnothing]
      | dropped id =>
        obtain ⟨hserved, hbacked, hturns⟩ := h.dropped hpop
        refine Or.inr ⟨[], r', hserved, hbacked, hturns, fun fuel => ?_⟩
        rw [dispatchFuel, if_neg hgo, hpop, List.nil_append]
      | taken id =>
        obtain ⟨pool, hsubmit, hserved, hbacked, hturns⟩ := h.taken hpop hfree
        refine Or.inr ⟨[id], r'.grant pool, hserved, hbacked, hturns, fun fuel => ?_⟩
        rw [dispatchFuel, if_neg hgo, hpop]
        dsimp only
        rw [handOver_eq, hsubmit]
        rfl

/-- The pass ends after no more turns than the jobs in line take, with an empty line or a full
pool. -/
theorem Backed.pass (h : r.Backed) (opened : r.closed = false) (now : Instant) :
    ∃ ids r', Served r ids r' ∧ (r'.line.order = [] ∨ r'.pool.freeSlots = 0) ∧
      ∀ fuel, r.turns < fuel → r.dispatchFuel now fuel = (ids, r') := by
  -- induction on the turns that are left
  induction hn : r.turns generalizing r with
  | zero =>
    obtain ⟨hend, hdispatch⟩ | ⟨ids, r', -, -, hturns, -⟩ := h.turn opened now
    · exact ⟨[], r, .refl r, hend, fun fuel _ => hdispatch fuel⟩
    · omega
  | succ n ih =>
    obtain ⟨hend, hdispatch⟩ | ⟨ids, r', hserved, hbacked, hturns, hdispatch⟩ := h.turn opened now
    · exact ⟨[], r, .refl r, hend, fun fuel _ => hdispatch fuel⟩
    · obtain ⟨ids', r'', hserved', hend, hrest⟩ :=
        ih hbacked (hserved.runner.trans opened) (by omega)
      refine ⟨ids ++ ids', r'', hserved.trans hserved', hend, fun fuel hfuel => ?_⟩
      cases fuel with
      | zero => exact absurd hfuel (Nat.not_lt_zero _)
      | succ fuel => rw [hdispatch, hrest fuel (by omega)]

end Runner

namespace Shift

variable {s : Shift}

open Runner

theorem Bookkeeping.backed (h : s.Bookkeeping) : s.runner.Backed where
  line := ⟨h.nodup, h.mem_queued⟩
  asked id st hst := (h.jobs id st hst).asked
  single id st hst hsingle := ((h.jobs id st hst).singleton hsingle).1

/-- A pass of the dispatch thread that no one interrupts comes to its end, with an empty line or a
full pool. It admits as many runs as the jobs in line ask for, or as many as there is room for if
these are fewer. Each run that is admitted is in the pool and no longer pending, the closed jobs
that have left the line have nothing pending, and nothing else has happened to any job. What is
pending can always be counted down, and the runs can be counted as long as they fit the counter. -/
theorem Bookkeeping.fills_pool (h : s.Bookkeeping) (opened : s.runner.closed = false)
    (admits : s.runner.pool.closed = false) (now : Instant) :
    ∃ ids r, (∀ fuel, s.runner.workload < fuel → s.runner.dispatchFuel now fuel = (ids, r)) ∧
      s.runner.dispatch now = (ids, r) ∧
      ids.length = (if s.runner.pool.limit = 0 then s.runner.demand
        else min s.runner.pool.freeSlots s.runner.demand) ∧
      (r.line.order = [] ∨ r.pool.freeSlots = 0) ∧
      (∀ id ∈ ids, id ∈ s.runner.line.order ∧ s.runner.roster.isClosed id = false) ∧
      (∀ id st, s.runner.roster.state? id = some st → st.isClosed = false →
        ∃ pending running,
          r.roster.state? id = some { st with pending := pending, running := running } ∧
          pending.toInt = st.pending.toInt - ids.count id ∧
          running = st.running + .ofNat (ids.count id) ∧
          (st.running.toInt + ids.count id ≤ 2147483647 →
            running.toInt = st.running.toInt + ids.count id)) ∧
      (∀ id st, s.runner.roster.state? id = some st → st.isClosed = true →
        r.roster.state? id =
          some (if id ∈ s.runner.line.order ∧ id ∉ r.line.order then st.clearPending else st)) := by
  obtain ⟨ids, r, hserved, hend, hdispatch⟩ := h.backed.pass opened now
  have hbound := turns_le_workload h.backed.line
  have hfuel (fuel : Nat) (hlt : s.runner.workload < fuel) :
      s.runner.dispatchFuel now fuel = (ids, r) :=
    hdispatch fuel (Nat.lt_of_le_of_lt hbound hlt)
  refine ⟨ids, r, hfuel, hfuel _ (Nat.lt_succ_self _), ?_, hend, fun id hid => ?_,
    fun id st hst hopen => ?_, fun id => (hserved.job id).closed⟩
  · have hdemand := hserved.demand
    have hnone (hempty : r.line.order = []) : r.demand = 0 := by
      rw [demand, total, hempty]
      rfl
    split
    · next hlimit =>
      -- a pool without a limit always has room
      obtain hempty | hfull := hend
      · have := hnone hempty
        omega
      · rw [Pool.freeSlots, hserved.pool, admits, hserved.limit, if_pos hlimit] at hfull
        cases hfull
    · next hlimit =>
      have hslots := hserved.slots hlimit
      obtain hempty | hfull := hend
      · have := hnone hempty
        omega
      · omega
  · exact (hserved.job id).admitted (Nat.ne_of_gt (List.count_pos_iff.mpr hid))
  · have hasked := (hserved.job id).asked st hst hopen
    exact ⟨_, _, (hserved.job id).opened st hst hopen, Counter.toInt_sub_of_le hasked, rfl,
      Counter.toInt_add_ofNat⟩

/-- Three triggers in line, and a pool that has room for two runs. -/
def narrowed : Shift := backlogged.withPool (backlogged.runner.pool.tune (some 2))

theorem demand_narrowed : narrowed.runner.demand = 3 := by
  have horder : narrowed.runner.line.order = [0, 1] := order_backlogged
  rw [demand, total, horder]
  decide +kernel

theorem bookkeeping_narrowed : narrowed.Bookkeeping :=
  Run.bookkept (run_backlogged.snoc (.tune backlogged (some 2))) fresh_backlogged (by decide)

/-- The pass admits two of the three runs that are asked for. -/
theorem dispatch_narrowed : narrowed.Bookkeeping ∧ narrowed.runner.demand = 3 ∧
    ∃ ids r, narrowed.runner.dispatch default = (ids, r) ∧ ids.length = 2 ∧
      (r.line.order = [] ∨ r.pool.freeSlots = 0) := by
  have hbook := bookkeeping_narrowed
  obtain ⟨ids, r, -, hdispatch, hlength, hend, -⟩ :=
    Bookkeeping.fills_pool hbook (by decide) (by decide) default
  refine ⟨hbook, demand_narrowed, ids, r, hdispatch, ?_, hend⟩
  rw [hlength, demand_narrowed]
  decide

end Shift

end Metronome
