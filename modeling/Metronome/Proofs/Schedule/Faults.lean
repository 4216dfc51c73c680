import Metronome.Proofs.Schedule.Position

/-!
# Descriptions that make no sense

A description is a tree. It becomes a schedule if none of its nodes is at fault: no length is zero,
every pattern can be read and occurs again, and every union has a part. If some node is at fault,
then what is wrong with the first of them is reported, where a node comes before its parts and the
parts come in order.

## Main definitions

* `ScheduleSpec.nodes` — the nodes of a description, in this order
* `ScheduleSpec.fault?` — what is wrong with a node, apart from its parts
* `ScheduleSpec.Sensible` — no node is at fault

## Main results

* `ScheduleSpec.refusal?_build` — the search for the first fault does what the recursion does
* `ScheduleSpec.exists_build_iff`, `ScheduleSpec.build_eq_error_iff` — when there is a schedule, and
  what is reported if there is none
-/

namespace Metronome

open Cron (Datable Pattern)

/-- Why there is no result, unless there is one. -/
def refusal? {α : Type} : Except SchedulerError α → Option SchedulerError
  | .ok _ => none
  | .error e => some e

theorem refusal?_eq_none_iff {α : Type} {r : Except SchedulerError α} :
    refusal? r = none ↔ ∃ a, r = .ok a := by
  cases r <;> simp [refusal?]

theorem refusal?_eq_some_iff {α : Type} {r : Except SchedulerError α} {e : SchedulerError} :
    refusal? r = some e ↔ r = .error e := by
  cases r <;> simp [refusal?]

/-- From the year zero on, a pattern that was read is found to occur again just when it does. -/
theorem Cron.Pattern.exists_next?_iff {text : String} {p : Pattern} {now : Instant}
    (hparse : Pattern.parse text = some p) (hnow : Datable now) :
    (∃ u, p.next? now = some u) ↔ ∃ u, p.Occurs u ∧ now < u := by
  have hp := Pattern.ranged_of_parse hparse
  constructor
  · rintro ⟨u, hu⟩
    exact ⟨u, ((Pattern.next?_eq_some_iff hp hnow).mp hu).1⟩
  · rintro ⟨u, hu, hlt⟩
    exact hp.exists_next? hnow hu hlt

namespace ScheduleSpec

mutual

/-- The nodes of a description: itself, and then those of its parts. -/
def nodes : ScheduleSpec → List ScheduleSpec
  | .every length => [.every length]
  | .cron pattern => [.cron pattern]
  | .any specs => .any specs :: nodesAll specs

/-- The nodes of several descriptions. -/
def nodesAll : List ScheduleSpec → List ScheduleSpec
  | [] => []
  | spec :: specs => nodes spec ++ nodesAll specs

end

/-- What is wrong with a pattern: it cannot be read, or does not occur again. -/
def patternFault? (a : Anchor) (pattern : String) : Option SchedulerError :=
  match Pattern.parse (Recurrence.normalize pattern) with
  | none => some (.invalidCron pattern)
  | some p => if (p.next? a.now).isNone then some (.cronExhausted pattern) else none

/-- What is wrong with a node of a description, whatever its parts are. -/
def fault? (a : Anchor) : ScheduleSpec → Option SchedulerError
  | .every length => if length.nanos = 0 then some .zeroInterval else none
  | .cron pattern => patternFault? a pattern
  | .any specs => if specs = [] then some .emptyGroup else none

/-- A description no node of which is at fault. -/
structure Sensible (a : Anchor) (spec : ScheduleSpec) : Prop where
  every : ∀ length, .every length ∈ spec.nodes → length.nanos ≠ 0
  cron : ∀ pattern, .cron pattern ∈ spec.nodes →
    ∃ p, Pattern.parse (Recurrence.normalize pattern) = some p ∧ ∃ u, p.next? a.now = some u
  any : .any [] ∉ spec.nodes

variable {a : Anchor} {spec : ScheduleSpec} {e : SchedulerError}

theorem refusal?_buildCron (a : Anchor) (pattern : String) :
    refusal? (buildCron a pattern) = patternFault? a pattern := by
  unfold buildCron Recurrence.start? patternFault?
  dsimp only
  cases Pattern.parse (Recurrence.normalize pattern) with
  | none => rfl
  | some p =>
    dsimp only
    cases p.next? a.now <;> rfl

/-- Every part of a union that is built is built. -/
theorem eq_nil_of_buildAll {specs : List ScheduleSpec} (h : buildAll a specs = .ok []) :
    specs = [] := by
  cases specs with
  | nil => rfl
  | cons spec specs =>
    rw [buildAll] at h
    split at h
    · cases h
    · split at h <;> cases h

/-- The recursion ends at the first node that is at fault. -/
theorem refusal?_build (a : Anchor) (spec : ScheduleSpec) :
    refusal? (spec.build a) = spec.nodes.findSome? (fault? a) := by
  -- a description and a list of descriptions are built by the same recursion
  refine build.induct a (fun spec => refusal? (spec.build a) = spec.nodes.findSome? (fault? a))
    (fun specs => refusal? (buildAll a specs) = (nodesAll specs).findSome? (fault? a))
    ?zero ?every ?cron ?partError ?any ?noPart ?nil ?firstError ?restError ?cons spec
  case zero =>
    intro length hzero
    have hnanos : length.nanos = 0 := by simpa [Span.isZero] using hzero
    rw [build, if_pos hzero, nodes, List.findSome?_singleton, fault?, if_pos hnanos]
    rfl
  case every =>
    intro length hpos
    have hnanos : length.nanos ≠ 0 := by simpa [Span.isZero] using hpos
    rw [build, if_neg hpos, nodes, List.findSome?_singleton, fault?, if_neg hnanos]
    rfl
  case cron =>
    intro pattern
    rw [build, refusal?_buildCron, nodes, List.findSome?_singleton, fault?]
  case partError =>
    -- a union with a part is not at fault itself
    intro specs e hall ih
    have hne : specs ≠ [] := by
      rintro rfl
      rw [buildAll] at hall
      cases hall
    simp only [build, hall, nodes, List.findSome?_cons, fault?, if_neg hne, ← ih]
    rfl
  case any =>
    intro specs ss hall s hgroup ih
    have hne : specs ≠ [] := by
      rintro rfl
      rw [buildAll] at hall
      cases hall
      cases hgroup
    simp only [build, hall, hgroup, nodes, List.findSome?_cons, fault?, if_neg hne, ← ih]
    rfl
  case noPart =>
    -- a group has as many children as the union has parts
    intro specs ss hall hgroup _
    have hnil : specs = [] := by
      unfold Schedule.group? at hgroup
      split at hgroup
      · next hempty => exact eq_nil_of_buildAll (List.isEmpty_iff.mp hempty ▸ hall)
      · cases hgroup
    simp only [build, hall, hgroup, nodes, List.findSome?_cons, fault?, if_pos hnil]
    rfl
  case nil => rfl
  case firstError =>
    intro spec specs e hfirst ih
    rw [buildAll, nodesAll, List.findSome?_append, ← ih, hfirst]
    rfl
  case restError =>
    intro spec specs s hfirst e hrest ihfirst ihrest
    rw [buildAll, nodesAll, List.findSome?_append, ← ihfirst, ← ihrest, hfirst, hrest]
    rfl
  case cons =>
    intro spec specs s hfirst rest hrest ihfirst ihrest
    rw [buildAll, nodesAll, List.findSome?_append, ← ihfirst, ← ihrest, hfirst, hrest]
    rfl

theorem patternFault?_eq_none_iff {pattern : String} : patternFault? a pattern = none ↔
    ∃ p, Pattern.parse (Recurrence.normalize pattern) = some p ∧ ∃ u, p.next? a.now = some u := by
  unfold patternFault?
  cases Pattern.parse (Recurrence.normalize pattern) with
  | none => simp
  | some p => simp [Option.ne_none_iff_exists']

/-- A description is sensible if none of its nodes is at fault. -/
theorem sensible_iff : spec.Sensible a ↔ ∀ node ∈ spec.nodes, node.fault? a = none := by
  constructor
  · intro h node hnode
    cases node with
    | every length => rw [fault?, if_neg (h.every length hnode)]
    | cron pattern => rw [fault?, patternFault?_eq_none_iff.mpr (h.cron pattern hnode)]
    | any specs =>
      have hne : specs ≠ [] := by
        rintro rfl
        exact h.any hnode
      rw [fault?, if_neg hne]
  · intro h
    refine ⟨?_, ?_, ?_⟩
    · intro length hnode hzero
      have hfault := h _ hnode
      rw [fault?, if_pos hzero] at hfault
      cases hfault
    · intro pattern hnode
      have hfault := h _ hnode
      rw [fault?] at hfault
      exact patternFault?_eq_none_iff.mp hfault
    · intro hnode
      have hfault := h _ hnode
      rw [fault?, if_pos rfl] at hfault
      cases hfault

/-- A description is built if it is sensible. -/
theorem exists_build_iff : (∃ s, spec.build a = .ok s) ↔ spec.Sensible a := by
  rw [← refusal?_eq_none_iff, refusal?_build, List.findSome?_eq_none_iff, sensible_iff]

/-- A description is refused because of its first node that is at fault. -/
theorem build_eq_error_iff : spec.build a = .error e ↔
    ∃ before node after, spec.nodes = before ++ node :: after ∧
      (∀ n ∈ before, n.fault? a = none) ∧ node.fault? a = some e := by
  rw [← refusal?_eq_some_iff, refusal?_build, List.findSome?_eq_some_iff]
  constructor
  · rintro ⟨before, node, after, hnodes, hfault, hbefore⟩
    exact ⟨before, node, after, hnodes, hbefore, hfault⟩
  · rintro ⟨before, node, after, hnodes, hbefore, hfault⟩
    exact ⟨before, node, after, hnodes, hfault, hbefore⟩

end ScheduleSpec

end Metronome
