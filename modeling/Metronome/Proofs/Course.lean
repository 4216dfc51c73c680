import Mathlib.Data.List.Count

/-!
# Courses of events

A machine is given by a relation that says which state may follow which one, and what is seen of
the step. A course of such a machine is a finite succession of steps; what is seen of it is the
list of the events in order. The machines of this library take a step of any of their threads at
a time, so that their courses are all interleavings of these threads.

## Main definitions

* `Course` — the events that lead from one state to another

## Main results

* `Course.append`, `Course.exists_step` — a course can be followed by another one, and cut at any of
  its steps
* `Course.preserves` — what each step preserves holds throughout a course
-/

namespace Metronome

variable {State Event : Type}

/-- A succession of steps from one state to another, with what is seen of them in order. -/
inductive Course (Step : State → Event → State → Prop) : State → List Event → State → Prop
  | refl (s : State) : Course Step s [] s
  | snoc {s t u : State} {es : List Event} {e : Event} :
      Course Step s es t → Step t e u → Course Step s (es ++ [e]) u

namespace Course

variable {Step : State → Event → State → Prop} {s t u : State} {es fs : List Event} {e : Event}

theorem single (h : Step s e t) : Course Step s [e] t := snoc (refl s) h

/-- A course can be followed by another one. -/
theorem append (hst : Course Step s es t) (htu : Course Step t fs u) :
    Course Step s (es ++ fs) u := by
  induction htu with
  | refl => simpa using hst
  | snoc _ hstep ih =>
    rw [← List.append_assoc]
    exact snoc ih hstep

/-- A course passes through each of its steps. -/
theorem exists_step (es : List Event) (h : Course Step s (es ++ e :: fs) u) :
    ∃ t t', Course Step s es t ∧ Step t e t' ∧ Course Step t' fs u := by
  generalize hall : es ++ e :: fs = all at h
  induction h generalizing fs with
  | refl => simp at hall
  | @snoc t u all' last hrun hstep ih =>
    obtain rfl | ⟨gs, g, rfl⟩ := List.eq_nil_or_concat fs
    · -- the step in question is the last one
      obtain ⟨rfl, hlast⟩ := List.append_inj' hall rfl
      obtain rfl := (List.cons.inj hlast).1
      exact ⟨t, u, hrun, hstep, .refl u⟩
    · rw [List.concat_eq_append, ← List.cons_append, ← List.append_assoc] at hall
      obtain ⟨hrest, hlast⟩ := List.append_inj' hall rfl
      obtain rfl := (List.cons.inj hlast).1
      obtain ⟨v, v', hbefore, hmid, hafter⟩ := ih hrest
      rw [List.concat_eq_append]
      exact ⟨v, v', hbefore, hmid, hafter.snoc hstep⟩

/-- What each step preserves holds throughout a course. -/
theorem preserves {P : State → Prop} (hstep : ∀ {s e t}, Step s e t → P s → P t)
    (h : Course Step s es t) (hs : P s) : P t := by
  induction h with
  | refl => exact hs
  | snoc _ h ih => exact hstep h ih

end Course

end Metronome
