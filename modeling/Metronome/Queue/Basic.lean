import Metronome.Tick

/-!
# Priority queue

A binary min-heap keyed by tick numbers, laid out in an array: the children of position `i`
stand at `2 * i + 1` and `2 * i + 2`. The least priority is also kept beside the heap, so
that whether anything is due can be seen without looking into it.

Equal priorities leave in no particular order, but the order is determined: an entry moves up
only past strictly greater priorities and down only past strictly smaller ones, to the left
child before the right one.

## Main definitions

* `Entry`, `Queue` — a value with its priority; the heap with its cached minimum
* `Queue.push`, `Queue.pop`, `Queue.popDue` — insertion and removal of the minimum
* `Queue.retain` — removal of all entries whose value fails a test
* `Queue.drain`, `Queue.scan` — the contents in array order
* `Queue.popAllDue` — every entry whose priority has been reached

## Main results

* `siftUp_perm`, `siftDown_perm`, `heapify_perm` — reordering neither loses nor adds entries
* `Queue.mem_of_popAllDue` — what `popAllDue` yields was in the queue
-/

namespace Metronome

/-- A value of the queue with its priority. -/
structure Entry (α : Type) where
  value : α
  priority : Tick
deriving DecidableEq

/-- A min-heap of entries and its least priority, which is `Tick.last` when it is empty. -/
structure Queue (α : Type) where
  entries : Array (Entry α)
  nextPriority : Tick
deriving DecidableEq

variable {α : Type}

/-! ### Restoring the heap order -/

/-- Moves the entry at position `i` towards the root, past all strictly greater priorities. -/
def siftUp (a : Array (Entry α)) (i : Nat) (h : i < a.size) : Array (Entry α) :=
  if h0 : i = 0 then a
  -- an equal priority above stops the entry as well
  else if a[(i - 1) / 2].priority ≤ a[i].priority then a
  else siftUp (a.swap ((i - 1) / 2) i) ((i - 1) / 2) (by simp; omega)
termination_by i

/-- The position of the least priority among `i` and its children. A child counts only when it
is strictly smaller, and the right child only when it is smaller than the left one too. -/
def leastAt (a : Array (Entry α)) (i : Nat) (h : i < a.size) : { j : Nat // i ≤ j ∧ j < a.size } :=
  let m : { j : Nat // i ≤ j ∧ j < a.size } :=
    if hl : 2 * i + 1 < a.size then
      if a[2 * i + 1].priority < a[i].priority then ⟨2 * i + 1, by omega, hl⟩
      else ⟨i, Nat.le_refl i, h⟩
    else ⟨i, Nat.le_refl i, h⟩
  if hr : 2 * i + 2 < a.size then
    have := m.property.2
    if a[2 * i + 2].priority < a[m.val].priority then ⟨2 * i + 2, by omega, hr⟩ else m
  else m

/-- Moves the entry at position `i` towards the leaves, past all strictly smaller priorities.
Nothing happens when there is no such position. -/
def siftDown (a : Array (Entry α)) (i : Nat) : Array (Entry α) :=
  if h : i < a.size then
    match leastAt a i h with
    | ⟨j, hj⟩ => if _hji : j = i then a else siftDown (a.swap i j h hj.2) j
  else a
termination_by a.size - i
decreasing_by
  simp only [Array.size_swap]
  omega

/-- Moves the entries at the positions `n - 1, …, 0` down, in this order. -/
def heapify (a : Array (Entry α)) : Nat → Array (Entry α)
  | 0 => a
  | n + 1 => heapify (siftDown a n) n

theorem siftUp_perm (a : Array (Entry α)) (i : Nat) (h : i < a.size) : (siftUp a i h).Perm a := by
  fun_induction siftUp a i h with
  | case1 => exact .refl _
  | case2 => exact .refl _
  | case3 a i h _ _ ih => exact ih.trans (Array.swap_perm _ _)

theorem siftDown_perm (a : Array (Entry α)) (i : Nat) : (siftDown a i).Perm a := by
  fun_induction siftDown a i with
  | case1 => exact .refl _
  | case2 a i h j hj _ _ ih => exact ih.trans (Array.swap_perm _ _)
  | case3 => exact .refl _

theorem heapify_perm (a : Array (Entry α)) (n : Nat) : (heapify a n).Perm a := by
  induction n generalizing a with
  | zero => exact .refl _
  | succ n ih => exact (ih _).trans (siftDown_perm a n)

/-- The priority at the root, or `Tick.last` when there is none. -/
def rootPriority (a : Array (Entry α)) : Tick :=
  (a[0]?).elim Tick.last Entry.priority

namespace Queue

/-- The queue without entries. -/
def empty : Queue α := ⟨#[], Tick.last⟩

instance : Inhabited (Queue α) := ⟨empty⟩

/-- The number of entries. -/
def size (q : Queue α) : Nat := q.entries.size

/-- Whether there is no entry. -/
def isEmpty (q : Queue α) : Bool := q.entries.isEmpty

/-- Adds `value` under `priority`. -/
def push (q : Queue α) (value : α) (priority : Tick) : Queue α :=
  { entries := siftUp (q.entries.push ⟨value, priority⟩) q.entries.size (by simp)
    nextPriority := min q.nextPriority priority }

/-- Removes the root: the last entry takes its place and moves down. -/
def dropRoot (q : Queue α) (h : 0 < q.entries.size) : Queue α :=
  let rest := siftDown ((q.entries.swap 0 (q.entries.size - 1)).pop) 0
  { entries := rest, nextPriority := rootPriority rest }

/-- The entry at the root and the queue without it. -/
def popEntry (q : Queue α) : Option (Entry α × Queue α) :=
  if h : 0 < q.entries.size then some (q.entries[0], q.dropRoot h) else none

/-- Removes an entry of least priority. -/
def pop (q : Queue α) : Option (α × Queue α) :=
  q.popEntry.map fun (e, rest) => (e.value, rest)

/-- Removes an entry of least priority, provided this priority is at most `limit`. -/
def popDue (q : Queue α) (limit : Tick) : Option (Entry α × Queue α) :=
  q.popEntry.filter fun (e, _) => e.priority ≤ limit

/-- The value of an entry of least priority. -/
def peek? (q : Queue α) : Option α := (q.entries[0]?).map Entry.value

/-- All entries in array order. -/
def scan (q : Queue α) : List (Entry α) := q.entries.toList

/-- All values in array order, and the queue left empty. -/
def drain (q : Queue α) : List α × Queue α :=
  (q.scan.map Entry.value, empty)

/-- Keeps the entries whose value passes the test, and says how many were removed. Without a
removal the array stays as it is. -/
def retain (q : Queue α) (keep : α → Bool) : Nat × Queue α :=
  let kept := q.entries.filter fun e => keep e.value
  let removed := q.entries.size - kept.size
  if removed = 0 then (0, q)
  else
    -- only the positions in the first half have children
    let rest := heapify kept (kept.size / 2)
    (removed, { entries := rest, nextPriority := rootPriority rest })

theorem size_dropRoot (q : Queue α) (h : 0 < q.entries.size) :
    (q.dropRoot h).size + 1 = q.size := by
  have := (siftDown_perm (q.entries.swap 0 (q.entries.size - 1)).pop 0).size_eq
  simp only [dropRoot, size]
  rw [this]
  simp only [Array.size_pop, Array.size_swap]
  omega

theorem mem_of_mem_dropRoot (q : Queue α) (h : 0 < q.entries.size) {e : Entry α}
    (he : e ∈ (q.dropRoot h).entries) : e ∈ q.entries := by
  have := (siftDown_perm (q.entries.swap 0 (q.entries.size - 1)).pop 0).mem_iff.1 he
  rw [Array.mem_def, Array.toList_pop] at this
  exact (Array.swap_perm _ _).mem_iff.1 (Array.mem_def.2 (List.dropLast_subset _ this))

theorem popDue_eq_some {q rest : Queue α} {limit : Tick} {e : Entry α}
    (h : q.popDue limit = some (e, rest)) :
    ∃ hq : 0 < q.entries.size,
      e = q.entries[0] ∧ rest = q.dropRoot hq ∧ e.priority ≤ limit := by
  simp only [popDue, popEntry, Option.filter_eq_some_iff] at h
  obtain ⟨h, hle⟩ := h
  split at h
  case isTrue hq =>
    cases h
    exact ⟨hq, rfl, rfl, by simpa using hle⟩
  case isFalse => cases h

theorem size_of_popDue {q rest : Queue α} {limit : Tick} {e : Entry α}
    (h : q.popDue limit = some (e, rest)) : rest.size < q.size := by
  obtain ⟨hq, _, rfl, _⟩ := popDue_eq_some h
  have := size_dropRoot q hq
  omega

/-- Removes all entries whose priority is at most `limit`, in the order in which they leave. -/
def popAllDue (q : Queue α) (limit : Tick) : List (Entry α) × Queue α :=
  match h : q.popDue limit with
  | none => ([], q)
  | some (e, rest) =>
    have := size_of_popDue h
    let (due, rest) := popAllDue rest limit
    (e :: due, rest)
termination_by q.size

/-- Every entry that `popAllDue` yields was in the queue. -/
theorem mem_of_popAllDue {q : Queue α} {limit : Tick} {e : Entry α}
    (he : e ∈ (q.popAllDue limit).1) : e ∈ q.entries := by
  fun_induction popAllDue q limit with
  | case1 => simp at he
  | case2 q _ rest h _ _ _ hrec ih =>
    obtain ⟨hq, rfl, rfl, _⟩ := popDue_eq_some h
    rw [hrec] at ih
    rcases List.mem_cons.1 he with rfl | he
    · exact Array.getElem_mem _
    · exact mem_of_mem_dropRoot q hq (ih he)

end Queue

end Metronome
