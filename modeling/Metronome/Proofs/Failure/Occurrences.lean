import Metronome.Failure.Directory
import Metronome.Proofs.Course

/-!
# Occurrences of errors

An error that is recorded adds one occurrence to its identity, whether the identity is known or not.
All other identities keep theirs, with one exception: when the directory is full, an identity that
is new takes the place of another one.

## Main definitions

* `ErrorDirectory.occurrences` — how often an identity has occurred
* `ErrorDirectory.Gains`, `ErrorDirectory.Gathers` — one more occurrence, and several of them

## Main results

* `ErrorDirectory.gains_record` — what is recorded adds one occurrence
-/

namespace Metronome

namespace ErrorDirectory

variable {d : ErrorDirectory} {e : TracedError} {id : UInt64} {t : Instant}

/-- The number of occurrences of an identity since it came in. -/
def occurrences (d : ErrorDirectory) (id : UInt64) : Nat := (d.get? id).elim 0 ErrorRecord.count

/-- An error has occurred once more. No other identity is touched, unless a full directory has given
up one of them for an identity that is new. -/
structure Gains (d : ErrorDirectory) (e : TracedError) (d' : ErrorDirectory) : Prop where
  occurrences : d'.occurrences e.id = d.occurrences e.id + 1
  others : ∀ id, id ≠ e.id → d'.get? id = d.get? id ∨
    capacity ≤ d.size ∧ d.get? e.id = none ∧ d'.get? id = none

/-- Errors have occurred in this order. -/
abbrev Gathers : ErrorDirectory → List TracedError → ErrorDirectory → Prop := Course Gains

theorem id_of_get? {r : ErrorRecord} (h : d.get? id = some r) : r.id = id := by
  simpa using List.find?_some (p := fun r : ErrorRecord => r.id == id) h

/-! ### A known identity -/

/-- The records with one more occurrence of an identity. -/
def again (d : ErrorDirectory) (id : UInt64) (t : Instant) : ErrorDirectory :=
  ⟨d.records.map fun r => if r.id == id then r.again t else r⟩

theorem get?_again (d : ErrorDirectory) (id other : UInt64) (t : Instant) :
    (d.again id t).get? other =
      (d.get? other).map fun r => if r.id == id then r.again t else r := by
  unfold again get?
  rw [List.find?_map]
  congr 2
  funext r
  -- an occurrence leaves the identity as it is
  dsimp only [Function.comp_apply]
  split <;> rfl

theorem gains_again {r : ErrorRecord} (h : d.get? e.id = some r) : d.Gains e (d.again e.id t) := by
  constructor
  · rw [occurrences, occurrences, get?_again, h, Option.map_some,
      if_pos (by simp [id_of_get? h])]
    rfl
  · intro id hid
    left
    rw [get?_again]
    cases hget : d.get? id with
    | none => rfl
    | some s => rw [Option.map_some, if_neg (by simpa [id_of_get? hget] using hid)]

/-! ### A new identity -/

/-- The records that remain are as they were, and only a full directory gives one of them up. -/
theorem find?_makeRoom (records : List ErrorRecord) (id : UInt64) :
    (makeRoom records).find? (fun r => r.id == id) = records.find? (fun r => r.id == id) ∨
      capacity ≤ records.length ∧ (makeRoom records).find? (fun r => r.id == id) = none := by
  unfold makeRoom
  split
  · exact Or.inl rfl
  · next hfull =>
    split
    · exact Or.inl rfl
    · next stale _ =>
      rw [List.find?_filter]
      by_cases hid : id = stale.id
      · right
        refine ⟨Nat.le_of_not_lt hfull, List.find?_eq_none.mpr fun r _ => ?_⟩
        simp [hid]
      · left
        congr 1
        funext r
        by_cases hr : r.id = id
        · simp [hr, hid]
        · simp [hr]

theorem gains_new {new : ErrorRecord} (h : d.get? e.id = none) (hid : new.id = e.id)
    (hcount : new.count = 1) : d.Gains e ⟨makeRoom d.records ++ [new]⟩ := by
  constructor
  · have hroom : (makeRoom d.records).find? (fun r => r.id == e.id) = none :=
      (find?_makeRoom d.records e.id).elim (fun heq => heq.trans h) And.right
    rw [occurrences, occurrences, h, get?, List.find?_append, hroom, Option.none_or,
      List.find?_cons_of_pos (by simp [hid])]
    exact hcount
  · intro id hne
    have hnew : [new].find? (fun r => r.id == id) = none :=
      List.find?_eq_none.mpr fun r hr => by
        rw [List.mem_singleton.mp hr, hid]
        simpa using Ne.symm hne
    rw [get?, List.find?_append, hnew, Option.or_none]
    exact (find?_makeRoom d.records id).imp_right fun ⟨hfull, hnone⟩ => ⟨hfull, h, hnone⟩

/-- What is recorded adds one occurrence, at whatever time. -/
theorem gains_record (d : ErrorDirectory) (e : TracedError) (t : Instant) :
    d.Gains e (d.record e t).2 := by
  unfold record recordAs
  cases h : d.get? e.id with
  | some r => exact gains_again h
  | none => exact gains_new h rfl rfl

end ErrorDirectory

end Metronome
