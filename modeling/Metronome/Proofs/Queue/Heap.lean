import Metronome.Queue.Basic

/-!
# Heap order

The operations of the queue move one entry along a path of the heap. While it moves, the order
holds everywhere but at the entry itself; what the order says of its neighbours is kept apart, in
the form that the direction of the move needs. Positions past the end count as if the last tick
stood there, so that no bounds have to be spoken of.

## Main definitions

* `key` — the priority at a position, as a number
* `OrderedFrom` — no position of a part of the heap is before its parent
* `UpOrder`, `DownOrder` — the order while an entry moves

## Main results

* `siftUp_ordered`, `siftDown_ordered`, `heapify_ordered` — the moves end in order
* `OrderedFrom.le_rootPriority_iff` — the root is the minimum
-/

namespace Metronome

variable {α : Type} {a : Array (Entry α)} {e : Entry α} {i j k n : Nat}

/-! ### Keys -/

/-- The priority at a position, the last tick past the end. -/
def key (a : Array (Entry α)) (i : Nat) : Int := ((a[i]?).elim Tick.last Entry.priority).val

theorem val_rootPriority (a : Array (Entry α)) : (rootPriority a).val = key a 0 := rfl

theorem key_eq (h : i < a.size) : key a i = a[i].priority.val := by
  rw [key, Array.getElem?_eq_getElem h]
  rfl

theorem key_of_size_le (h : a.size ≤ i) : key a i = Tick.last.val := by
  rw [key, Array.getElem?_eq_none h]
  rfl

theorem key_le_last (a : Array (Entry α)) (i : Nat) : key a i ≤ Tick.last.val :=
  Tick.le_def.mp (Tick.le_last _)

theorem key_swap (hi : i < a.size) (hj : j < a.size) (k : Nat) :
    key (a.swap i j hi hj) k = if k = i then key a j else if k = j then key a i else key a k := by
  rw [key_eq hi, key_eq hj, key, key, Array.getElem?_swap]
  by_cases hk : k = i
  · subst hk
    by_cases hjk : j = k
    · subst hjk
      simp
    · simp [hjk]
  · by_cases hjk : k = j
    · subst hjk
      simp [hk]
    · simp [hk, hjk, Ne.symm hk, Ne.symm hjk]

theorem key_push (a : Array (Entry α)) (e : Entry α) (k : Nat) :
    key (a.push e) k = if k = a.size then e.priority.val else key a k := by
  rw [key, key, Array.getElem?_push]
  split <;> rfl

theorem key_pop (a : Array (Entry α)) (k : Nat) :
    key a.pop k = if k < a.size - 1 then key a k else Tick.last.val := by
  rw [key, key, Array.getElem?_pop]
  split <;> rfl

/-! ### Orders -/

/-- No position whose parent is at least `lo` is before its parent. -/
def OrderedFrom (a : Array (Entry α)) (lo : Nat) : Prop :=
  ∀ i, 0 < i → lo ≤ (i - 1) / 2 → key a ((i - 1) / 2) ≤ key a i

/-- The order while the entry at `hole` moves towards the root: it may be before its parent. -/
structure UpOrder (a : Array (Entry α)) (hole : Nat) : Prop where
  except : ∀ i, 0 < i → i ≠ hole → key a ((i - 1) / 2) ≤ key a i
  grand : 0 < hole → ∀ c, 0 < c → (c - 1) / 2 = hole → key a ((hole - 1) / 2) ≤ key a c

/-- The order while the entry at `hole` moves towards the leaves: its children may be before it. -/
structure DownOrder (a : Array (Entry α)) (lo hole : Nat) : Prop where
  except : ∀ i, 0 < i → lo ≤ (i - 1) / 2 → (i - 1) / 2 ≠ hole → key a ((i - 1) / 2) ≤ key a i
  grand : 0 < hole → lo ≤ (hole - 1) / 2 → ∀ c, 0 < c → (c - 1) / 2 = hole →
    key a ((hole - 1) / 2) ≤ key a c

/-! ### Towards the root -/

theorem UpOrder.ordered (h : UpOrder a i) (hstop : 0 < i → key a ((i - 1) / 2) ≤ key a i) :
    OrderedFrom a 0 := by
  intro k hk _
  by_cases hki : k = i
  · subst hki
    exact hstop hk
  · exact h.except k hk hki

/-- The moving entry changes places with its parent, which it is before. -/
theorem UpOrder.move (h : UpOrder a i) (h0 : 0 < i) (hi : i < a.size) (hp : (i - 1) / 2 < a.size)
    (hlt : key a i < key a ((i - 1) / 2)) :
    UpOrder (a.swap ((i - 1) / 2) i hp hi) ((i - 1) / 2) := by
  have hparent : 0 < (i - 1) / 2 → key a (((i - 1) / 2 - 1) / 2) ≤ key a ((i - 1) / 2) :=
    fun hpos => h.except _ hpos (by omega)
  constructor
  · intro k hk hne
    rw [key_swap, key_swap, if_neg hne]
    by_cases hki : k = i
    · subst hki
      rw [if_pos rfl, if_pos rfl]
      exact Int.le_of_lt hlt
    · rw [if_neg hki]
      by_cases hchild : (k - 1) / 2 = i
      · -- a child of the old place, whose parent is now what was its grandparent
        rw [if_neg (by omega), if_pos hchild]
        exact h.grand h0 k hk hchild
      · rw [if_neg hchild]
        have horder := h.except k hk hki
        split
        · -- the sibling, whose parent is now the moving entry
          next hsibling =>
          rw [hsibling] at horder
          omega
        · exact horder
  · intro hpos c hc hchild
    rw [key_swap, key_swap, if_neg (by omega), if_neg (by omega), if_neg (by omega)]
    by_cases hci : c = i
    · rw [if_pos hci]
      exact hparent hpos
    · rw [if_neg hci]
      have horder := h.except c hc hci
      rw [hchild] at horder
      exact Int.le_trans (hparent hpos) horder

/-- An entry that moves towards the root ends in order. -/
theorem siftUp_ordered (hi : i < a.size) (h : UpOrder a i) : OrderedFrom (siftUp a i hi) 0 := by
  -- the order off the hole is what each exchange keeps; the entry stops where there is no hole
  fun_induction siftUp a i hi with
  | case1 => exact h.ordered fun h0 => absurd h0 (Nat.lt_irrefl 0)
  | case2 a i hi h0 hle =>
    refine h.ordered fun _ => ?_
    rw [key_eq hi, key_eq (by omega)]
    exact Tick.le_def.mp hle
  | case3 a i hi h0 hle ih =>
    refine ih (h.move (Nat.pos_of_ne_zero h0) hi (by omega) ?_)
    rw [key_eq hi, key_eq (by omega)]
    exact Int.lt_of_not_ge (mt Tick.le_def.mpr hle)

/-! ### Towards the leaves -/

/-- The position of the smaller key, the first one if both are equal. -/
def lower (a : Array (Entry α)) (i j : Nat) : Nat := if key a j < key a i then j else i

theorem lower_eq_or (a : Array (Entry α)) (i j : Nat) : lower a i j = i ∨ lower a i j = j := by
  unfold lower
  split
  · exact Or.inr rfl
  · exact Or.inl rfl

theorem key_lower_le (a : Array (Entry α)) (i j : Nat) :
    key a (lower a i j) ≤ key a i ∧ key a (lower a i j) ≤ key a j := by
  unfold lower
  split <;> omega

/-- A position past the end is never the lower one. -/
theorem val_leastAt (hi : i < a.size) :
    (leastAt a i hi).val = lower a (lower a i (2 * i + 1)) (2 * i + 2) := by
  have hpast (m c : Nat) (hc : ¬ c < a.size) : lower a m c = m := by
    rw [lower, key_of_size_le (Nat.le_of_not_lt hc), if_neg (Int.not_lt.mpr (key_le_last a m))]
  -- the two comparisons, each of which is left out if there is no such child
  unfold leastAt
  extract_lets m
  have hleft : m.val = lower a i (2 * i + 1) := by
    by_cases hl : 2 * i + 1 < a.size
    · rw [show m = _ from dif_pos hl, lower, key_eq hl, key_eq hi]
      split
      · next hlt => rw [if_pos (Tick.lt_def.mp hlt)]
      · next hlt => rw [if_neg (mt Tick.lt_def.mpr hlt)]
    · rw [show m = _ from dif_neg hl, hpast i _ hl]
  by_cases hr : 2 * i + 2 < a.size
  · rw [dif_pos hr, ← hleft, lower, key_eq hr, key_eq m.property.2]
    split
    · next hlt => rw [if_pos (Tick.lt_def.mp hlt)]
    · next hlt => rw [if_neg (mt Tick.lt_def.mpr hlt)]
  · rw [dif_neg hr, hpast _ _ hr, hleft]

/-- The least key among a position and its children is found at one of them. -/
theorem leastAt_spec (hi : i < a.size) :
    ((leastAt a i hi).val = i ∨ 0 < (leastAt a i hi).val ∧ ((leastAt a i hi).val - 1) / 2 = i) ∧
      key a (leastAt a i hi) ≤ key a i ∧
        ∀ c, 0 < c → (c - 1) / 2 = i → key a (leastAt a i hi) ≤ key a c := by
  rw [val_leastAt hi]
  have hfirst := key_lower_le a i (2 * i + 1)
  have hsecond := key_lower_le a (lower a i (2 * i + 1)) (2 * i + 2)
  refine ⟨?_, Int.le_trans hsecond.1 hfirst.1, fun c hc hci => ?_⟩
  · obtain h | h := lower_eq_or a (lower a i (2 * i + 1)) (2 * i + 2) <;> rw [h]
    · obtain h | h := lower_eq_or a i (2 * i + 1) <;> rw [h] <;> omega
    · omega
  · obtain rfl | rfl : c = 2 * i + 1 ∨ c = 2 * i + 2 := by omega
    · exact Int.le_trans hsecond.1 hfirst.2
    · exact hsecond.2

theorem DownOrder.ordered {lo : Nat} (h : DownOrder a lo i)
    (hstop : ∀ c, 0 < c → (c - 1) / 2 = i → key a i ≤ key a c) : OrderedFrom a lo := by
  intro k hk hlo
  by_cases hki : (k - 1) / 2 = i
  · rw [hki]
    exact hstop k hk hki
  · exact h.except k hk hlo hki

/-- The moving entry changes places with the least of its children. -/
theorem DownOrder.move {lo : Nat} (h : DownOrder a lo i) (hlo : lo ≤ i) (hi : i < a.size)
    (hj : j < a.size) (hpos : 0 < j) (hchild : (j - 1) / 2 = i) (hle : key a j ≤ key a i)
    (hleast : ∀ c, 0 < c → (c - 1) / 2 = i → key a j ≤ key a c) :
    DownOrder (a.swap i j hi hj) lo j := by
  constructor
  · intro k hk hlok hne
    rw [key_swap, key_swap, if_neg hne]
    by_cases hparent : (k - 1) / 2 = i
    · rw [if_pos hparent, if_neg (by omega)]
      split
      · exact hle
      · exact hleast k hk hparent
    · rw [if_neg hparent]
      by_cases hki : k = i
      · -- the child that moved up is not before the parent of its new place
        subst hki
        rw [if_pos rfl]
        exact h.grand hk hlok j hpos hchild
      · have hkj : k ≠ j := fun hkj => hparent (by rw [hkj, hchild])
        rw [if_neg hki, if_neg hkj]
        exact h.except k hk hlok hparent
  · intro _ _ c hc hcj
    have horder := h.except c hc (by omega) (by omega)
    rw [key_swap, key_swap, if_pos hchild, if_neg (by omega), if_neg (by omega)]
    rwa [hcj] at horder

/-- An entry that moves towards the leaves ends in order. -/
theorem siftDown_ordered {lo : Nat} (h : DownOrder a lo i) (hlo : lo ≤ i) :
    OrderedFrom (siftDown a i) lo := by
  fun_induction siftDown a i with
  | case1 a i hi hj heq =>
    obtain ⟨-, -, hleast⟩ := leastAt_spec (a := a) hi
    rw [heq] at hleast
    exact h.ordered hleast
  | case2 a i hi j hj heq hne ih =>
    obtain ⟨hplace, hle, hleast⟩ := leastAt_spec (a := a) hi
    rw [heq] at hplace hle hleast
    obtain heq | ⟨hpos, hchild⟩ := hplace
    · exact absurd heq hne
    · exact ih (h.move hlo hi hj.2 hpos hchild hle hleast) (by omega)
  | case3 a i hi =>
    -- past the end all keys are the last one
    refine h.ordered fun c hc hci => ?_
    have hkey : key a i = key a c := by
      rw [key_of_size_le (Nat.le_of_not_lt hi), key_of_size_le (by omega : a.size ≤ c)]
    exact Int.le_of_eq hkey

/-- Moving down the entries of all positions with children brings a heap into order. -/
theorem heapify_ordered (h : OrderedFrom a n) : OrderedFrom (heapify a n) 0 := by
  induction n generalizing a with
  | zero => exact h
  | succ n ih =>
    refine ih (siftDown_ordered ⟨fun i hi hlo hne => ?_, fun hpos hlo => ?_⟩ (Nat.le_refl n))
    · exact h i hi (by omega)
    · omega

/-- The positions in the second half have no children. -/
theorem orderedFrom_half (a : Array (Entry α)) : OrderedFrom a (a.size / 2) := by
  intro i hi hlo
  rw [key_of_size_le (by omega : a.size ≤ i)]
  exact key_le_last a _

/-! ### The root -/

theorem OrderedFrom.key_zero_le (h : OrderedFrom a 0) (i : Nat) : key a 0 ≤ key a i := by
  induction i using Nat.strongRecOn with
  | ind i ih =>
    by_cases hi : i = 0
    · exact Int.le_of_eq (by rw [hi])
    · exact Int.le_trans (ih _ (by omega)) (h i (Nat.pos_of_ne_zero hi) (Nat.zero_le _))

/-- The root is the minimum. -/
theorem OrderedFrom.le_rootPriority_iff (h : OrderedFrom a 0) {t : Tick} :
    t ≤ rootPriority a ↔ ∀ e ∈ a, t ≤ e.priority := by
  rw [Tick.le_def, val_rootPriority]
  constructor
  · intro ht e he
    obtain ⟨i, hi, rfl⟩ := Array.getElem_of_mem he
    rw [Tick.le_def, ← key_eq hi]
    exact Int.le_trans ht (h.key_zero_le i)
  · intro ht
    by_cases hsize : 0 < a.size
    · rw [key_eq hsize]
      exact Tick.le_def.mp (ht _ (Array.getElem_mem hsize))
    · rw [key_of_size_le (Nat.le_of_not_lt hsize)]
      exact Tick.le_def.mp t.le_last

end Metronome
