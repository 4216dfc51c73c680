import Mathlib.Data.List.Nodup
import Mathlib.Tactic.Tauto
import Metronome.Runner.Line
import Std.Data.HashSet.Lemmas

/-!
# The line and the set of the jobs in it

The set of the jobs in line is kept beside their order so that a job is found without walking
along the line. Both always say the same, and no job stands in line twice.

## Main definitions

* `Line.Sound` — order and set agree, and the order has no repetition

## Main results

* `Line.Sound.pushBack`, `Line.Sound.pushFront`, `Line.Sound.popFront` — the operations keep this
* `Line.Sound.mem_pushBack`, `Line.Sound.mem_pushFront`, `Line.Sound.mem_popFront` — who is in line
  afterwards
-/

namespace Metronome.Line

/-- The set of the jobs in line agrees with their order, in which no job stands twice. -/
structure Sound (l : Line) : Prop where
  nodup : l.order.Nodup
  mem_queued : ∀ id, id ∈ l.queued ↔ id ∈ l.order

variable {l rest : Line} {id other : JobId}

theorem sound_empty : ({} : Line).Sound := ⟨List.nodup_nil, by simp⟩

theorem Sound.contains_iff (h : l.Sound) : l.queued.contains id = true ↔ id ∈ l.order := by
  rw [Std.HashSet.contains_iff_mem, h.mem_queued]

theorem pushBack_of_mem (h : l.Sound) (hid : id ∈ l.order) : l.pushBack id = l := by
  rw [pushBack, if_pos (h.contains_iff.mpr hid)]

theorem pushFront_of_mem (h : l.Sound) (hid : id ∈ l.order) : l.pushFront id = l := by
  rw [pushFront, if_pos (h.contains_iff.mpr hid)]

theorem order_pushBack (h : l.Sound) (hid : id ∉ l.order) :
    (l.pushBack id).order = l.order ++ [id] := by
  rw [pushBack, if_neg (mt h.contains_iff.mp hid)]

theorem order_pushFront (h : l.Sound) (hid : id ∉ l.order) :
    (l.pushFront id).order = id :: l.order := by
  rw [pushFront, if_neg (mt h.contains_iff.mp hid)]

theorem Sound.pushBack (h : l.Sound) (id : JobId) : (l.pushBack id).Sound := by
  by_cases hid : id ∈ l.order
  · rw [pushBack_of_mem h hid]
    exact h
  · rw [Line.pushBack, if_neg (mt h.contains_iff.mp hid)]
    refine ⟨?_, fun other => ?_⟩
    · rw [List.nodup_append]
      refine ⟨h.nodup, List.nodup_singleton id, fun a ha b hb => ?_⟩
      rw [List.mem_singleton.mp hb]
      exact fun hab => hid (hab ▸ ha)
    · simp only [Std.HashSet.mem_insert, h.mem_queued, List.mem_append, List.mem_singleton,
        beq_iff_eq]
      tauto

theorem Sound.pushFront (h : l.Sound) (id : JobId) : (l.pushFront id).Sound := by
  by_cases hid : id ∈ l.order
  · rw [pushFront_of_mem h hid]
    exact h
  · rw [Line.pushFront, if_neg (mt h.contains_iff.mp hid)]
    refine ⟨List.nodup_cons.mpr ⟨hid, h.nodup⟩, fun other => ?_⟩
    simp only [Std.HashSet.mem_insert, h.mem_queued, List.mem_cons, beq_iff_eq]
    tauto

theorem Sound.mem_pushBack (h : l.Sound) :
    other ∈ (l.pushBack id).order ↔ other = id ∨ other ∈ l.order := by
  by_cases hid : id ∈ l.order
  · rw [pushBack_of_mem h hid]
    exact ⟨Or.inr, fun hor => hor.elim (fun heq => heq ▸ hid) (fun hmem => hmem)⟩
  · rw [order_pushBack h hid, List.mem_append, List.mem_singleton, or_comm]

theorem Sound.mem_pushFront (h : l.Sound) :
    other ∈ (l.pushFront id).order ↔ other = id ∨ other ∈ l.order := by
  by_cases hid : id ∈ l.order
  · rw [pushFront_of_mem h hid]
    exact ⟨Or.inr, fun hor => hor.elim (fun heq => heq ▸ hid) (fun hmem => hmem)⟩
  · rw [order_pushFront h hid, List.mem_cons]

theorem order_of_popFront (h : l.popFront = some (id, rest)) : l.order = id :: rest.order := by
  unfold popFront at h
  split at h
  · cases h
  · next hl =>
    cases h
    exact hl

theorem Sound.popFront (h : l.Sound) (hpop : l.popFront = some (id, rest)) : rest.Sound := by
  unfold Line.popFront at hpop
  split at hpop
  · cases hpop
  · next hl =>
    cases hpop
    have hnodup := List.nodup_cons.mp (hl ▸ h.nodup)
    refine ⟨hnodup.2, fun other => ?_⟩
    simp only [Std.HashSet.mem_erase, h.mem_queued, hl, List.mem_cons, beq_eq_false_iff_ne]
    constructor
    · rintro ⟨hne, heq | hmem⟩
      · exact absurd heq.symm hne
      · exact hmem
    · exact fun hmem => ⟨fun heq => hnodup.1 (heq ▸ hmem), Or.inr hmem⟩

theorem Sound.mem_popFront (h : l.Sound) (hpop : l.popFront = some (id, rest)) :
    other ∈ rest.order ↔ other ≠ id ∧ other ∈ l.order := by
  have hl := order_of_popFront hpop
  have hnodup := List.nodup_cons.mp (hl ▸ h.nodup)
  rw [hl, List.mem_cons]
  constructor
  · exact fun hmem => ⟨fun heq => hnodup.1 (heq ▸ hmem), Or.inr hmem⟩
  · rintro ⟨hne, heq | hmem⟩
    · exact absurd heq hne
    · exact hmem

end Metronome.Line
