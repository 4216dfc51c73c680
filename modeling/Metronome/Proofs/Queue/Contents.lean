import Mathlib.Data.Multiset.Filter
import Mathlib.Order.Bounds.Defs
import Metronome.Proofs.Queue.Heap

/-!
# The contents of a queue

Whatever is done to a queue, its entries are known up to their order, and the least of them is at
the root. So the ticks under which a value is queued can be followed from one operation to the
next without looking at the heap.

## Main definitions

* `Queue.WF` — the heap is in order, and the least priority is the one at the root
* `Queue.places` — the ticks under which a value is queued

## Main results

* `Queue.WF.push`, `Queue.WF.popDue`, `Queue.WF.retain` — the operations keep the order
* `Queue.WF.lt_of_popDue_eq_none` — nothing that is due is left behind
* `Queue.WF.isLeast_next` — the priority beside the heap is the least one in it
* `Queue.contents_push`, `Queue.contents_popDue`, `Queue.contents_retain` — the contents
* `Queue.WF.coe_popAllDue`, `Queue.WF.contents_popAllDue` — what is due, and what is not
-/

namespace Metronome

namespace Tick

variable {s t u : Tick}

theorem le_min_iff : t ≤ min s u ↔ t ≤ s ∧ t ≤ u := by
  rw [le_def, le_def, le_def, val_min]
  omega

theorem not_le : ¬ s ≤ t ↔ t < s := Int.not_le

/-- A tick is known by the ticks up to it. -/
theorem eq_of_forall_le_iff (h : ∀ t : Tick, t ≤ s ↔ t ≤ u) : s = u := by
  have hs := (h s).mp (le_def.mpr (Int.le_refl _))
  have hu := (h u).mpr (le_def.mpr (Int.le_refl _))
  exact ext (Int.le_antisymm hs hu)

end Tick

namespace Queue

variable {α : Type} {q rest : Queue α} {e : Entry α} {limit : Tick}

/-- The heap is in order, and the least priority beside it is the one at the root. -/
structure WF (q : Queue α) : Prop where
  ordered : OrderedFrom q.entries 0
  next : q.nextPriority = rootPriority q.entries

theorem wf_empty : (empty : Queue α).WF :=
  ⟨fun _ _ _ => Int.le_refl _, rfl⟩

/-- The least priority is known without looking at the heap. -/
theorem WF.le_next_iff (h : q.WF) {t : Tick} :
    t ≤ q.nextPriority ↔ ∀ e ∈ q.entries, t ≤ e.priority := by
  rw [h.next]
  exact h.ordered.le_rootPriority_iff

theorem mem_push {v : α} {p : Tick} :
    e ∈ (q.push v p).entries ↔ e ∈ q.entries ∨ e = ⟨v, p⟩ := by
  rw [push, (siftUp_perm _ _ _).mem_iff, Array.mem_push]

/-- A new entry begins at the end, where it has no children. -/
theorem upOrder_push (h : OrderedFrom q.entries 0) (e : Entry α) :
    UpOrder (q.entries.push e) q.entries.size := by
  have hlast := key_le_last (q.entries.push e)
  have hpast (c : Nat) (hc : q.entries.size < c) : key (q.entries.push e) c = Tick.last.val :=
    key_of_size_le (by rw [Array.size_push]; omega)
  constructor
  · intro i hi hne
    by_cases hlt : i < q.entries.size
    · rw [key_push, key_push, if_neg (by omega), if_neg (by omega)]
      exact h i hi (Nat.zero_le _)
    · rw [hpast i (by omega)]
      exact hlast _
  · intro _ c hc hchild
    rw [hpast c (by omega)]
    exact hlast _

theorem WF.push (h : q.WF) (v : α) (p : Tick) : (q.push v p).WF := by
  have hordered : OrderedFrom (q.push v p).entries 0 :=
    siftUp_ordered _ (upOrder_push h.ordered ⟨v, p⟩)
  refine ⟨hordered, Tick.eq_of_forall_le_iff fun t => ?_⟩
  -- both sides are reached by the ticks that no entry is before
  rw [hordered.le_rootPriority_iff, Queue.push, Tick.le_min_iff, h.le_next_iff]
  constructor
  · rintro ⟨hall, hp⟩ e he
    obtain hmem | rfl := mem_push.mp he
    · exact hall e hmem
    · exact hp
  · exact fun hall => ⟨fun e he => hall e (mem_push.mpr (Or.inl he)),
      hall ⟨v, p⟩ (mem_push.mpr (Or.inr rfl))⟩

theorem last_lt (hq : 0 < q.entries.size) : q.entries.size - 1 < q.entries.size :=
  Nat.sub_one_lt_of_lt hq

/-- The last entry takes the place of the root and begins there. -/
theorem downOrder_dropRoot (h : OrderedFrom q.entries 0) (hq : 0 < q.entries.size) :
    DownOrder (q.entries.swap 0 (q.entries.size - 1) hq (last_lt hq)).pop 0 0 := by
  refine ⟨fun i hi _ hne => ?_, fun hpos => absurd hpos (Nat.lt_irrefl 0)⟩
  rw [key_pop, key_pop, Array.size_swap, key_swap, key_swap]
  -- away from the root only the last position has changed, and that one is gone
  by_cases hlt : i < q.entries.size - 1
  · rw [if_pos (by omega), if_pos hlt, if_neg hne, if_neg (by omega), if_neg (by omega),
      if_neg (by omega)]
    exact h i hi (Nat.zero_le _)
  · rw [if_neg hlt]
    split
    · split <;> exact key_le_last _ _
    · exact Int.le_refl _

theorem WF.dropRoot (h : q.WF) (hq : 0 < q.entries.size) : (q.dropRoot hq).WF :=
  ⟨siftDown_ordered (downOrder_dropRoot h.ordered hq) (Nat.le_refl 0), rfl⟩

theorem WF.popDue (h : q.WF) (hpop : q.popDue limit = some (e, rest)) : rest.WF := by
  obtain ⟨hq, -, rfl, -⟩ := popDue_eq_some hpop
  exact h.dropRoot hq

theorem rootPriority_eq (hq : 0 < q.entries.size) :
    rootPriority q.entries = q.entries[0].priority := by
  rw [rootPriority, Array.getElem?_eq_getElem hq]
  rfl

/-- The entry at the root is among the least ones. -/
theorem WF.root_le (h : q.WF) (hq : 0 < q.entries.size) {x : Entry α} (hx : x ∈ q.entries) :
    q.entries[0].priority ≤ x.priority := by
  rw [← rootPriority_eq hq]
  exact h.ordered.le_rootPriority_iff.mp (Tick.le_def.mpr (Int.le_refl _)) x hx

theorem WF.next_of_empty (h : q.WF) (hempty : q.entries = #[]) : q.nextPriority = Tick.last := by
  rw [h.next, hempty]
  rfl

/-- The priority beside the heap is one of those in it, and no entry is before it. -/
theorem WF.isLeast_next (h : q.WF) (hne : q.entries ≠ #[]) :
    IsLeast {p | ∃ e ∈ q.entries, e.priority = p} q.nextPriority := by
  have hq : 0 < q.entries.size := Array.size_pos_iff.mpr hne
  rw [h.next, rootPriority_eq hq]
  constructor
  · exact ⟨_, Array.getElem_mem hq, rfl⟩
  · rintro p ⟨e, he, rfl⟩
    exact h.root_le hq he

/-- Nothing that is due is left behind. -/
theorem WF.lt_of_popDue_eq_none (h : q.WF) (hpop : q.popDue limit = none) (he : e ∈ q.entries) :
    limit < e.priority := by
  have hq : 0 < q.entries.size := Array.size_pos_of_mem he
  rw [Queue.popDue, popEntry, dif_pos hq, Option.filter_eq_none_iff] at hpop
  have hroot : ¬ q.entries[0].priority ≤ limit := by simpa using hpop _ rfl
  have hle := h.root_le hq he
  rw [Tick.le_def] at hroot hle
  rw [Tick.lt_def]
  omega

theorem WF.retain (h : q.WF) (keep : α → Bool) : (q.retain keep).2.WF := by
  unfold Queue.retain
  dsimp only
  split
  · exact h
  · exact ⟨heapify_ordered (orderedFrom_half _), rfl⟩

/-! ### Contents -/

/-- The entries of a queue, in no order. -/
def contents (q : Queue α) : Multiset (Entry α) := q.entries.toList

theorem mem_contents : e ∈ q.contents ↔ e ∈ q.entries := by
  rw [contents, Multiset.mem_coe, Array.mem_toList_iff]

theorem card_contents (q : Queue α) : q.contents.card = q.size := by
  rw [contents, Multiset.coe_card, Array.length_toList, size]

theorem contents_eq_zero_iff : q.contents = 0 ↔ q.entries.size = 0 := by
  rw [← Multiset.card_eq_zero, card_contents, size]

theorem isEmpty_iff : q.isEmpty = true ↔ q.contents = 0 := by
  rw [isEmpty, Array.isEmpty_iff_size_eq_zero, contents_eq_zero_iff]

theorem contents_push (q : Queue α) (v : α) (p : Tick) :
    (q.push v p).contents = ⟨v, p⟩ ::ₘ q.contents := by
  have hperm := Array.perm_iff_toList_perm.mp
    (siftUp_perm (q.entries.push ⟨v, p⟩) q.entries.size (by simp))
  rw [Array.toList_push] at hperm
  rw [contents, contents, Multiset.cons_coe, Multiset.coe_eq_coe]
  exact hperm.trans (List.perm_append_singleton _ _)

/-- The last entry of an array, apart from the others. -/
theorem perm_last_cons_pop (a : Array α) (h : 0 < a.size) :
    a.toList.Perm (a[a.size - 1] :: a.pop.toList) := by
  have hne : a.toList ≠ [] := by
    rw [Ne, ← List.length_eq_zero_iff, Array.length_toList]
    omega
  have hlast : a.toList.getLast hne = a[a.size - 1] := by
    rw [List.getLast_eq_getElem, Array.getElem_toList]
    rfl
  have hperm := List.perm_append_singleton (a.toList.getLast hne) a.toList.dropLast
  rwa [List.dropLast_concat_getLast hne, hlast, ← Array.toList_pop] at hperm

theorem contents_dropRoot (hq : 0 < q.entries.size) :
    q.contents = q.entries[0] ::ₘ (q.dropRoot hq).contents := by
  have hswap := Array.perm_iff_toList_perm.mp (Array.swap_perm hq (last_lt hq))
  have hlast := perm_last_cons_pop (q.entries.swap 0 (q.entries.size - 1)) (by simpa using hq)
  have hrest := Array.perm_iff_toList_perm.mp
    (siftDown_perm (q.entries.swap 0 (q.entries.size - 1)).pop 0)
  simp only [Array.size_swap, Array.getElem_swap_right] at hlast
  rw [contents, contents, Multiset.cons_coe, Multiset.coe_eq_coe]
  exact (hswap.symm.trans hlast).trans (hrest.symm.cons _)

theorem contents_popDue (h : q.popDue limit = some (e, rest)) :
    q.contents = e ::ₘ rest.contents := by
  obtain ⟨hq, rfl, rfl, -⟩ := popDue_eq_some h
  exact contents_dropRoot hq

/-- What is taken is the root, and it is taken unless there is none. -/
theorem popEntry_eq_some (h : q.popEntry = some (e, rest)) :
    ∃ hq : 0 < q.entries.size, e = q.entries[0] ∧ rest = q.dropRoot hq := by
  unfold popEntry at h
  split at h
  · next hq =>
    cases h
    exact ⟨hq, rfl, rfl⟩
  · cases h

theorem popEntry_eq_none_iff : q.popEntry = none ↔ q.contents = 0 := by
  rw [contents_eq_zero_iff]
  unfold popEntry
  split
  · next hq => exact iff_of_false (fun h => by cases h) (Nat.ne_of_gt hq)
  · next hq => exact iff_of_true rfl (Nat.eq_zero_of_not_pos hq)

theorem contents_retain (q : Queue α) (keep : α → Bool) :
    (q.retain keep).2.contents = q.contents.filter fun e => keep e.value := by
  have hfilter : (q.contents.filter fun e => keep e.value) =
      ((q.entries.filter fun e => keep e.value).toList : Multiset (Entry α)) := by
    rw [contents, Multiset.filter_coe, Array.toList_filter]
    simp
  rw [hfilter]
  unfold retain
  dsimp only
  split
  · next hremoved =>
    -- a filter that removes nothing by number removes nothing at all
    have hall : (q.entries.filter fun e => keep e.value) = q.entries := by
      have hle := List.length_filter_le (fun e : Entry α => keep e.value) q.entries.toList
      rw [← Array.toList_filter, Array.length_toList, Array.length_toList] at hle
      rw [← Array.toList_inj, Array.toList_filter, List.filter_eq_self,
        ← List.length_filter_eq_length_iff, ← Array.toList_filter, Array.length_toList,
        Array.length_toList]
      omega
    rw [hall]
    rfl
  · exact Multiset.coe_eq_coe.mpr (Array.perm_iff_toList_perm.mp (heapify_perm _ _))

/-! ### All that is due -/

theorem WF.popAllDue (h : q.WF) (limit : Tick) : (q.popAllDue limit).2.WF := by
  fun_induction Queue.popAllDue q limit with
  | case1 => exact h
  | case2 q _ rest hpop _ _ _ hrec ih =>
    rw [hrec] at ih
    exact ih (h.popDue hpop)

/-- What is taken are the entries that are due. -/
theorem WF.coe_popAllDue (h : q.WF) (limit : Tick) :
    ((q.popAllDue limit).1 : Multiset (Entry α)) =
      q.contents.filter fun e => e.priority ≤ limit := by
  fun_induction Queue.popAllDue q limit with
  | case1 q hpop =>
    refine (Multiset.filter_eq_nil.mpr fun e he => ?_).symm
    exact Tick.not_le.mpr (h.lt_of_popDue_eq_none hpop (mem_contents.mp he))
  | case2 q e rest hpop _ _ _ hrec ih =>
    rw [hrec] at ih
    obtain ⟨-, -, -, hle⟩ := popDue_eq_some hpop
    rw [contents_popDue hpop, ← Multiset.cons_coe, ih (h.popDue hpop)]
    exact (Multiset.filter_cons_of_pos (p := fun x : Entry α => x.priority ≤ limit) _ hle).symm

/-- What is left behind are the entries that are not due yet. -/
theorem WF.contents_popAllDue (h : q.WF) (limit : Tick) :
    (q.popAllDue limit).2.contents = q.contents.filter fun e => ¬ e.priority ≤ limit := by
  fun_induction Queue.popAllDue q limit with
  | case1 q hpop =>
    refine (Multiset.filter_eq_self.mpr fun e he => ?_).symm
    exact Tick.not_le.mpr (h.lt_of_popDue_eq_none hpop (mem_contents.mp he))
  | case2 q e rest hpop _ _ _ hrec ih =>
    rw [hrec] at ih
    obtain ⟨-, -, -, hle⟩ := popDue_eq_some hpop
    rw [contents_popDue hpop, ih (h.popDue hpop)]
    exact (Multiset.filter_cons_of_neg (p := fun x : Entry α => ¬ x.priority ≤ limit) _
      (not_not_intro hle)).symm

theorem WF.mem_popAllDue (h : q.WF) :
    e ∈ (q.popAllDue limit).1 ↔ e ∈ q.entries ∧ e.priority ≤ limit := by
  rw [← Multiset.mem_coe, h.coe_popAllDue, Multiset.mem_filter, mem_contents]

theorem WF.mem_entries_popAllDue (h : q.WF) :
    e ∈ (q.popAllDue limit).2.entries ↔ e ∈ q.entries ∧ ¬ e.priority ≤ limit := by
  rw [← mem_contents, h.contents_popAllDue, Multiset.mem_filter, mem_contents]

section Places

variable [DecidableEq α] {v w : α} {p : Tick}

/-- The ticks under which a value is queued. -/
def places (q : Queue α) (v : α) : Multiset Tick :=
  (q.contents.filter fun e => e.value = v).map Entry.priority

theorem mem_places : p ∈ q.places v ↔ ⟨v, p⟩ ∈ q.entries := by
  rw [places, Multiset.mem_map]
  constructor
  · rintro ⟨e, he, rfl⟩
    obtain ⟨hmem, rfl⟩ := Multiset.mem_filter.mp he
    exact mem_contents.mp hmem
  · intro h
    exact ⟨⟨v, p⟩, Multiset.mem_filter.mpr ⟨mem_contents.mpr h, rfl⟩, rfl⟩

theorem places_push_self (q : Queue α) (v : α) (p : Tick) :
    (q.push v p).places v = p ::ₘ q.places v := by
  rw [places, contents_push,
    Multiset.filter_cons_of_pos (p := fun e : Entry α => e.value = v) _ rfl, Multiset.map_cons]
  rfl

theorem places_push_of_ne (h : w ≠ v) (p : Tick) : (q.push w p).places v = q.places v := by
  rw [places, contents_push, Multiset.filter_cons_of_neg (p := fun e : Entry α => e.value = v) _ h]
  rfl

theorem places_popDue_self (h : q.popDue limit = some (e, rest)) :
    q.places e.value = e.priority ::ₘ rest.places e.value := by
  rw [places, contents_popDue h,
    Multiset.filter_cons_of_pos (p := fun x : Entry α => x.value = e.value) _ rfl,
    Multiset.map_cons]
  rfl

theorem places_popDue_of_ne (h : q.popDue limit = some (e, rest)) (hv : e.value ≠ v) :
    rest.places v = q.places v := by
  rw [places, places, contents_popDue h,
    Multiset.filter_cons_of_neg (p := fun e : Entry α => e.value = v) _ hv]

theorem places_retain {keep : α → Bool} (h : keep v = true) :
    (q.retain keep).2.places v = q.places v := by
  rw [places, contents_retain, Multiset.filter_filter, places]
  congr 1
  refine Multiset.filter_congr fun e _ => and_iff_left_of_imp ?_
  rintro rfl
  exact h

end Places

end Queue

end Metronome
