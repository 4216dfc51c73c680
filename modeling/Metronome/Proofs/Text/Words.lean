import Mathlib.Data.List.DropRight
import Metronome.Text.Blank

/-!
# Words of a text

Blanks divide a text into words. A blank is nothing but a division, so that the words on its two
sides can be counted apart. In particular blanks at the ends of a text do not count, and a text that
is written in columns with blanks between them has at least one word in each column, even if there
are blanks within the columns too.

## Main definitions

* `Text.Trimmed` — there is no blank at either end
* `Text.Columns` — a text is written in a number of columns with blanks between them

## Main results

* `Text.words_append_blank` — the words on both sides of a blank
* `Text.wordCount_trim` — trimming leaves the number of words as it is
* `Text.Columns.le_words` — there is a word in each column
-/

namespace Metronome.Text

variable {b : Char} {before cs : List Char}

/-! ### Blanks between words -/

theorem wordsAfter_append_blank (hb : isBlank b = true) (run cs ds : List Char) :
    wordsAfter run (cs ++ b :: ds) = wordsAfter run cs ++ words ds := by
  induction cs generalizing run with
  | nil =>
    rw [List.nil_append, wordsAfter.eq_2, if_pos hb, wordsAfter.eq_1]
    split <;> rfl
  | cons c cs ih =>
    rw [List.cons_append, wordsAfter, wordsAfter]
    split
    · split
      · exact ih []
      · rw [ih [], List.cons_append]
    · exact ih (c :: run)

/-- A blank divides the words of a text. -/
theorem words_append_blank (hb : isBlank b = true) (cs ds : List Char) :
    words (cs ++ b :: ds) = words cs ++ words ds :=
  wordsAfter_append_blank hb [] cs ds

theorem words_cons_blank (hb : isBlank b = true) (cs : List Char) : words (b :: cs) = words cs :=
  words_append_blank hb [] cs

/-- Blanks in front of a text have no words. -/
theorem words_blanks_append (hbefore : ∀ c ∈ before, isBlank c = true) (cs : List Char) :
    words (before ++ cs) = words cs := by
  induction before with
  | nil => rfl
  | cons c before ih =>
    rw [List.cons_append, words_cons_blank (hbefore c List.mem_cons_self)]
    exact ih fun d hd => hbefore d (List.mem_cons_of_mem c hd)

theorem words_blanks (hcs : ∀ c ∈ cs, isBlank c = true) : words cs = [] := by
  rw [← List.append_nil cs, words_blanks_append hcs]
  rfl

/-- Blanks behind a text have no words. -/
theorem words_append_blanks (cs : List Char) {after : List Char}
    (hafter : ∀ c ∈ after, isBlank c = true) : words (cs ++ after) = words cs := by
  cases after with
  | nil => rw [List.append_nil]
  | cons c after =>
    rw [words_append_blank (hafter c List.mem_cons_self),
      words_blanks fun d hd => hafter d (List.mem_cons_of_mem c hd), List.append_nil]

/-- Taking away blanks at the two ends takes away no words. -/
theorem words_dropWhile {p : Char → Bool} (hp : ∀ c, p c = true → isBlank c = true)
    (cs : List Char) : words ((cs.dropWhile p).rdropWhile p) = words cs := by
  have hfront : ∀ c ∈ cs.takeWhile p, isBlank c = true := fun c hc =>
    hp c (List.mem_takeWhile_imp hc)
  have hback : ∀ c ∈ (cs.dropWhile p).rtakeWhile p, isBlank c = true := fun c hc =>
    hp c (List.mem_rtakeWhile_imp hc)
  calc words ((cs.dropWhile p).rdropWhile p)
      = words ((cs.dropWhile p).rdropWhile p ++ (cs.dropWhile p).rtakeWhile p) :=
        (words_append_blanks _ hback).symm
    _ = words (cs.dropWhile p) := by rw [List.rdropWhile_append_rtakeWhile]
    _ = words (cs.takeWhile p ++ cs.dropWhile p) := (words_blanks_append hfront _).symm
    _ = words cs := by rw [List.takeWhile_append_dropWhile]

/-- Words do not vanish: a character that is no blank is in one. -/
theorem wordsAfter_ne_nil {run cs : List Char} (h : run ≠ [] ∨ ∃ c ∈ cs, isBlank c = false) :
    wordsAfter run cs ≠ [] := by
  induction cs generalizing run with
  | nil =>
    obtain hrun | ⟨c, hc, -⟩ := h
    · rw [wordsAfter, if_neg (by simpa using hrun)]
      exact nofun
    · cases hc
  | cons c cs ih =>
    rw [wordsAfter]
    split
    · next hblank =>
      split
      · next hrun =>
        refine ih (Or.inr ?_)
        rcases h with hne | ⟨d, hd, hword⟩
        · exact absurd (List.isEmpty_iff.mp hrun) hne
        · rcases List.mem_cons.mp hd with rfl | hd
          · simp [hblank] at hword
          · exact ⟨d, hd, hword⟩
      · exact nofun
    · exact ih (Or.inl nofun)

theorem words_ne_nil (h : ∃ c ∈ cs, isBlank c = false) : words cs ≠ [] :=
  wordsAfter_ne_nil (Or.inr h)

/-! ### Trimmed texts -/

/-- There is no blank at either end. -/
def Trimmed (cs : List Char) : Prop :=
  ∀ h : cs ≠ [], isBlank (cs.head h) = false ∧ isBlank (cs.getLast h) = false

theorem trimChars_eq (cs : List Char) :
    trimChars cs = (cs.dropWhile isBlank).rdropWhile isBlank := rfl

theorem trimmed_trimChars (cs : List Char) : Trimmed (trimChars cs) := by
  rw [trimChars_eq]
  intro h
  constructor
  · rw [(List.rdropWhile_prefix isBlank _).head h]
    exact List.head_dropWhile_not isBlank _
  · exact Bool.eq_false_iff.mpr (List.rdropWhile_last_not isBlank _ h)

/-- There are no blanks in front to be dropped, of whatever kinds. -/
theorem Trimmed.dropWhile_eq_self {p : Char → Bool} (h : Trimmed cs)
    (hp : ∀ c, p c = true → isBlank c = true) : cs.dropWhile p = cs :=
  List.dropWhile_eq_self_iff.mpr fun hpos hfirst => by
    rw [← List.head_eq_getElem_zero (List.length_pos_iff.mp hpos)] at hfirst
    exact Bool.eq_false_iff.mp (h _).1 (hp _ hfirst)

/-- There is nothing to be trimmed. -/
theorem Trimmed.trimChars_eq_self (h : Trimmed cs) : trimChars cs = cs := by
  rw [trimChars_eq, h.dropWhile_eq_self fun _ => id]
  exact List.rdropWhile_eq_self_iff.mpr fun hne => Bool.eq_false_iff.mp (h hne).2

/-- A text that is put before a trimmed one leaves its end as it is. -/
theorem Trimmed.append (h : Trimmed cs) (hcs : cs ≠ []) (hb : isBlank b = false) (ds : List Char) :
    Trimmed (b :: ds ++ cs) := by
  intro hne
  refine ⟨hb, ?_⟩
  rw [List.getLast_append_of_ne_nil _ hcs]
  exact (h hcs).2

theorem toList_trim (s : String) : (trim s).toList = trimChars s.toList := String.toList_ofList

theorem trimmed_trim (s : String) : Trimmed (trim s).toList := by
  rw [toList_trim]
  exact trimmed_trimChars s.toList

theorem trim_eq_self {s : String} (h : Trimmed s.toList) : trim s = s := by
  rw [trim, h.trimChars_eq_self, String.ofList_toList]

theorem words_trimChars (cs : List Char) : words (trimChars cs) = words cs :=
  words_dropWhile (fun _ => id) cs

/-- Trimming leaves the number of words as it is. -/
theorem wordCount_trim (s : String) : wordCount (trim s) = wordCount s := by
  rw [wordCount, toList_trim, words_trimChars, wordCount]

/-! ### Columns -/

/-- A text is written in a number of columns with blanks between them. There may be blanks within
the columns as well, but something else too. -/
inductive Columns : Nat → List Char → Prop
  | single {column : List Char} (h : ∃ c ∈ column, isBlank c = false) : Columns 1 column
  | append {n : Nat} {cs column : List Char} {b : Char} (hcs : Columns n cs) (hb : isBlank b = true)
      (h : ∃ c ∈ column, isBlank c = false) : Columns (n + 1) (cs ++ b :: column)

/-- There is a word in each column. -/
theorem Columns.le_words {n : Nat} (h : Columns n cs) : n ≤ (words cs).length := by
  induction h with
  | single h => exact List.length_pos_iff.mpr (words_ne_nil h)
  | append _ hb h ih =>
    rw [words_append_blank hb, List.length_append]
    exact Nat.add_le_add ih (List.length_pos_iff.mpr (words_ne_nil h))

end Metronome.Text
