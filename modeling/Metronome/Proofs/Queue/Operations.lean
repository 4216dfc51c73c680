import Metronome.Proofs.Course
import Metronome.Proofs.Queue.Contents

/-!
# A queue in use

A queue begins empty and is used through its operations, in any order and with any priorities. The
heap stays in order all the while, and the least priority beside it stays the least one. What the
operations answer can be told without the heap: it is what a multiset of entries would answer, from
which an entry of least priority is removed at each removal. Only the choice among entries of equal
priority, and the order in which the contents are listed, is left to the heap.

## Main definitions

* `Operation`, `Answer`, `perform` — what can be done to a queue, and what comes of it
* `after`, `history` — the queue after a sequence of operations, and what they have answered
* `Obeys` — what an operation may answer if all that is known of a queue are its entries
* `popAll` — the values of a queue that is popped until it is empty

## Main results

* `heap_ordered_after` — the order of the heap, and the least priority
* `obeys_multiset` — a queue answers as a multiset would, and is emptied in order of priority
-/

namespace Metronome.Queue

variable {α : Type} {q rest : Queue α}

/-- What can be done to a queue. -/
inductive Operation (α : Type)
  | push (value : α) (priority : Tick)
  | pop
  | popDue (limit : Tick)
  | peek
  | scan
  | drain
  | retain (keep : α → Bool)

/-- What an operation answers. -/
inductive Answer (α : Type)
  /-- The value has been added. -/
  | pushed
  /-- The value of an entry of least priority, removed or not. -/
  | value (v : Option α)
  /-- An entry that was due. -/
  | due (e : Option (Entry α))
  /-- The entries as they stand in the array. -/
  | scanned (es : List (Entry α))
  /-- The values that were in the queue. -/
  | drained (vs : List α)
  /-- The number of entries that were removed. -/
  | removed (n : Nat)

/-- The answer of an operation and the queue afterwards. -/
def perform (q : Queue α) : Operation α → Answer α × Queue α
  | .push v p => (.pushed, q.push v p)
  | .pop =>
    match q.pop with
    | none => (.value none, q)
    | some (v, rest) => (.value (some v), rest)
  | .popDue limit =>
    match q.popDue limit with
    | none => (.due none, q)
    | some (e, rest) => (.due (some e), rest)
  | .peek => (.value q.peek?, q)
  | .scan => (.scanned q.scan, q)
  | .drain => (.drained q.drain.1, q.drain.2)
  | .retain keep => (.removed (q.retain keep).1, (q.retain keep).2)

/-- The queue after a sequence of operations. -/
def after (q : Queue α) : List (Operation α) → Queue α
  | [] => q
  | op :: ops => (q.perform op).2.after ops

/-- The operations of a sequence, each with its answer. -/
def history (q : Queue α) : List (Operation α) → List (Operation α × Answer α)
  | [] => []
  | op :: ops => (op, (q.perform op).1) :: (q.perform op).2.history ops

theorem pop_eq_some {v : α} (h : q.pop = some (v, rest)) :
    ∃ hq : 0 < q.entries.size, v = q.entries[0].value ∧ rest = q.dropRoot hq := by
  obtain ⟨⟨e, rest'⟩, hpop, heq⟩ := Option.map_eq_some_iff.mp h
  cases heq
  obtain ⟨hq, rfl, rfl⟩ := popEntry_eq_some hpop
  exact ⟨hq, rfl, rfl⟩

theorem pop_eq_none_iff : q.pop = none ↔ q.contents = 0 := by
  rw [pop, Option.map_eq_none_iff, popEntry_eq_none_iff]

/-! ### The order of the heap -/

theorem WF.perform (h : q.WF) (op : Operation α) : (q.perform op).2.WF := by
  cases op with
  | push v p => exact h.push v p
  | pop =>
    unfold Queue.perform
    dsimp only
    split
    · exact h
    · next hpop =>
      obtain ⟨hq, -, rfl⟩ := pop_eq_some hpop
      exact h.dropRoot hq
  | popDue limit =>
    unfold Queue.perform
    dsimp only
    split
    · exact h
    · next hpop => exact h.popDue hpop
  | peek => exact h
  | scan => exact h
  | drain => exact wf_empty
  | retain keep => exact h.retain keep

theorem WF.after (h : q.WF) (ops : List (Operation α)) : (q.after ops).WF := by
  induction ops generalizing q with
  | nil => exact h
  | cons op ops ih => exact ih (h.perform op)

/-- No entry is before its parent. -/
theorem WF.parent_le (h : q.WF) {i : Nat} (hi : i < q.entries.size) (hpos : 0 < i) :
    q.entries[(i - 1) / 2].priority ≤ q.entries[i].priority := by
  have horder := h.ordered i hpos (Nat.zero_le _)
  rwa [key_eq hi, key_eq (by omega : (i - 1) / 2 < q.entries.size)] at horder

/-- However a queue has been used, no entry of the heap is before its parent, and the priority kept
beside the heap is the least one in it, or the last tick when there is none. -/
theorem heap_ordered_after (ops : List (Operation α)) :
    let q := (empty : Queue α).after ops
    (∀ (i : Nat) (hi : i < q.entries.size), 0 < i →
      q.entries[(i - 1) / 2].priority ≤ q.entries[i].priority) ∧
    (q.entries = #[] → q.nextPriority = Tick.last) ∧
    (q.entries ≠ #[] → IsLeast {p | ∃ e ∈ q.entries, e.priority = p} q.nextPriority) := by
  intro q
  have hwf : q.WF := wf_empty.after ops
  exact ⟨fun i hi hpos => hwf.parent_le hi hpos, hwf.next_of_empty, hwf.isLeast_next⟩

/-! ### The queue as a multiset -/

/-- An entry of a multiset whose priority is a least one. -/
def Least (m : Multiset (Entry α)) (e : Entry α) : Prop := e ∈ m ∧ ∀ x ∈ m, e.priority ≤ x.priority

/-- What an operation may answer, and what it leaves, if all that is known of a queue are its
entries. -/
inductive Obeys : Multiset (Entry α) → Operation α × Answer α → Multiset (Entry α) → Prop
  | push (m : Multiset (Entry α)) (v : α) (p : Tick) : Obeys m (.push v p, .pushed) (⟨v, p⟩ ::ₘ m)
  | popNone : Obeys 0 (.pop, .value none) 0
  | pop (m : Multiset (Entry α)) (e : Entry α) (least : Least (e ::ₘ m) e) :
      Obeys (e ::ₘ m) (.pop, .value (some e.value)) m
  | popDueNone (m : Multiset (Entry α)) (limit : Tick) (later : ∀ e ∈ m, limit < e.priority) :
      Obeys m (.popDue limit, .due none) m
  | popDue (m : Multiset (Entry α)) (e : Entry α) (limit : Tick) (least : Least (e ::ₘ m) e)
      (due : e.priority ≤ limit) : Obeys (e ::ₘ m) (.popDue limit, .due (some e)) m
  | peekNone : Obeys 0 (.peek, .value none) 0
  | peek (m : Multiset (Entry α)) (e : Entry α) (least : Least m e) :
      Obeys m (.peek, .value (some e.value)) m
  /-- Every entry is listed once. -/
  | scan (es : List (Entry α)) : Obeys es (.scan, .scanned es) es
  /-- Every value is listed once, and nothing is left. -/
  | drain (es : List (Entry α)) : Obeys es (.drain, .drained (es.map Entry.value)) 0
  /-- The entries whose value fails the test are removed, and counted. -/
  | retain (m : Multiset (Entry α)) (keep : α → Bool) :
      Obeys m (.retain keep, .removed (m.countP fun e => ¬ keep e.value))
        (m.filter fun e => keep e.value)

/-- The entry at the root has a least priority. -/
theorem WF.least_root (h : q.WF) (hq : 0 < q.entries.size) : Least q.contents q.entries[0] :=
  ⟨mem_contents.mpr (Array.getElem_mem hq), fun _ hx => h.root_le hq (mem_contents.mp hx)⟩

/-- What is removed is counted. -/
theorem fst_retain (q : Queue α) (keep : α → Bool) :
    (q.retain keep).1 = q.contents.countP fun e => ¬ keep e.value := by
  -- the number is zero exactly when the array stays as it is
  have hfst : (q.retain keep).1 =
      q.entries.size - (q.entries.filter fun e => keep e.value).size := by
    unfold retain
    dsimp only
    split
    · next hremoved => exact hremoved.symm
    · rfl
  have hkept : (q.entries.filter fun e => keep e.value).size =
      q.contents.countP fun e => keep e.value := by
    rw [← Array.countP_eq_size_filter, contents, Multiset.coe_countP, Array.countP_toList]
    simp
  have hall := Multiset.card_eq_countP_add_countP (fun e : Entry α => keep e.value) q.contents
  rw [card_contents, size] at hall
  omega

/-- Whatever is done to a queue, a multiset of its entries would do. -/
theorem WF.obeys (h : q.WF) (op : Operation α) :
    Obeys q.contents (op, (q.perform op).1) (q.perform op).2.contents := by
  cases op with
  | push v p =>
    rw [Queue.perform, contents_push]
    exact .push _ v p
  | pop =>
    unfold Queue.perform
    dsimp only
    split
    · next hpop =>
      rw [pop_eq_none_iff.mp hpop]
      exact .popNone
    · next hpop =>
      obtain ⟨hq, rfl, rfl⟩ := pop_eq_some hpop
      have hleast := h.least_root hq
      rw [contents_dropRoot hq] at hleast ⊢
      exact .pop _ _ hleast
  | popDue limit =>
    unfold Queue.perform
    dsimp only
    split
    · next hpop =>
      exact .popDueNone _ _ fun e he => h.lt_of_popDue_eq_none hpop (mem_contents.mp he)
    · next hpop =>
      obtain ⟨hq, rfl, rfl, hle⟩ := popDue_eq_some hpop
      have hleast := h.least_root hq
      rw [contents_dropRoot hq] at hleast ⊢
      exact .popDue _ _ _ hleast hle
  | peek =>
    by_cases hq : 0 < q.entries.size
    · rw [Queue.perform, peek?, Array.getElem?_eq_getElem hq]
      exact .peek _ _ (h.least_root hq)
    · have hnone : q.contents = 0 := contents_eq_zero_iff.mpr (Nat.eq_zero_of_not_pos hq)
      rw [Queue.perform, peek?, Array.getElem?_eq_none (Nat.le_of_not_lt hq), hnone]
      exact .peekNone
  | scan => exact .scan _
  | drain => exact .drain _
  | retain keep =>
    rw [Queue.perform, fst_retain, contents_retain]
    exact .retain _ keep

/-- A queue in order does what a multiset of its entries would do, one operation after another. -/
theorem WF.obeys_history (h : q.WF) (ops : List (Operation α)) :
    Course Obeys q.contents (q.history ops) (q.after ops).contents := by
  induction ops generalizing q with
  | nil => exact .refl _
  | cons op ops ih => exact (Course.single (h.obeys op)).append (ih (h.perform op))

/-! ### Emptying a queue -/

theorem size_of_pop {v : α} (h : q.pop = some (v, rest)) : rest.size < q.size := by
  obtain ⟨hq, -, rfl⟩ := pop_eq_some h
  have hsize := size_dropRoot q hq
  omega

/-- The values of a queue that is popped until it is empty, in the order in which they leave. -/
def popAll (q : Queue α) : List α :=
  match h : q.pop with
  | none => []
  | some (v, rest) =>
    have := size_of_pop h
    v :: rest.popAll
termination_by q.size

/-- A queue that is popped until it is empty yields all its entries, the least priorities first. -/
theorem WF.popAll (h : q.WF) :
    ∃ es : List (Entry α), q.popAll = es.map Entry.value ∧ q.contents = es ∧
      es.Pairwise fun e f => e.priority ≤ f.priority := by
  fun_induction Queue.popAll q with
  | case1 q hpop => exact ⟨[], rfl, pop_eq_none_iff.mp hpop, .nil⟩
  | case2 q v rest hpop _ ih =>
    obtain ⟨hq, rfl, rfl⟩ := pop_eq_some hpop
    obtain ⟨es, hvalues, hcontents, hsorted⟩ := ih (h.dropRoot hq)
    have hall : q.contents = (q.entries[0] :: es : List (Entry α)) := by
      rw [contents_dropRoot hq, hcontents, Multiset.cons_coe]
    refine ⟨q.entries[0] :: es, by rw [hvalues, List.map_cons], hall, ?_⟩
    -- what is left has been in the queue together with the root
    refine List.Pairwise.cons (fun e he => (h.least_root hq).2 e ?_) hsorted
    rw [hall, Multiset.mem_coe]
    exact List.mem_cons_of_mem _ he

/-- However a queue has been used, it has answered as a multiset of entries would that began empty,
and what it now holds is what the multiset holds; popping until it is empty yields this, every entry
once, in order of priority. -/
theorem obeys_multiset (ops : List (Operation α)) :
    let q := (empty : Queue α).after ops
    Course Obeys 0 ((empty : Queue α).history ops) q.contents ∧
      ∃ es : List (Entry α), q.popAll = es.map Entry.value ∧ q.contents = es ∧
        es.Pairwise fun e f => e.priority ≤ f.priority :=
  ⟨wf_empty.obeys_history ops, (wf_empty.after ops).popAll⟩

end Metronome.Queue
