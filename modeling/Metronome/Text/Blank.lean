import Metronome.Text.Ranges

/-!
# Blanks

The characters with the Unicode property `White_Space`, and what it means to trim a text and
to split it into words at them.

## Main definitions

* `isBlank` — the character class
* `trim` — a text without the blanks at its two ends
* `words` — the maximal runs of other characters
-/

namespace Metronome.Text

/-- The ranges of characters with the property `White_Space`. -/
def blankRanges : List (Nat × Nat) :=
  [(0x9, 0xD), (0x20, 0x20), (0x85, 0x85), (0xA0, 0xA0), (0x1680, 0x1680), (0x2000, 0x200A),
    (0x2028, 0x2029), (0x202F, 0x202F), (0x205F, 0x205F), (0x3000, 0x3000)]

/-- Whether a character is a blank. -/
def isBlank (c : Char) : Bool := inRanges c.toNat blankRanges

theorem isBlank_of_isWhitespace {c : Char} (h : c.isWhitespace = true) : isBlank c = true := by
  simp only [Char.isWhitespace, Bool.or_eq_true, decide_eq_true_eq] at h
  rcases h with ((rfl | rfl) | rfl) | rfl <;> decide

/-- A text without the blanks at its two ends. -/
def trimChars (cs : List Char) : List Char :=
  ((cs.dropWhile isBlank).reverse.dropWhile isBlank).reverse

/-- A text without the blanks at its two ends. -/
def trim (s : String) : String := String.ofList (trimChars s.toList)

/-- Splits into maximal runs of characters that are no blanks, with the run before the first
character given reversed. -/
def wordsAfter (run : List Char) : List Char → List (List Char)
  | [] => if run.isEmpty then [] else [run.reverse]
  | c :: cs =>
    if isBlank c then
      if run.isEmpty then wordsAfter [] cs else run.reverse :: wordsAfter [] cs
    else wordsAfter (c :: run) cs

/-- The maximal runs of characters that are no blanks. -/
def words (cs : List Char) : List (List Char) := wordsAfter [] cs

/-- The number of words of a text. -/
def wordCount (s : String) : Nat := (words s.toList).length

end Metronome.Text
