/-!
# Ranges of characters

A class of characters can be written down as a list of ranges of their numbers.

## Main definitions

* `inRanges` — whether a number lies in one of several ranges
-/

namespace Metronome.Text

/-- Whether a number lies in one of several ranges, whose two ends are in them. -/
def inRanges (n : Nat) (ranges : List (Nat × Nat)) : Bool :=
  ranges.any fun (lo, hi) => lo ≤ n && n ≤ hi

theorem inRanges_of_mem {n lo hi : Nat} {ranges : List (Nat × Nat)} (hmem : (lo, hi) ∈ ranges)
    (hlo : lo ≤ n) (hhi : n ≤ hi) : inRanges n ranges = true := by
  rw [inRanges, List.any_eq_true]
  exact ⟨(lo, hi), hmem, by simp [hlo, hhi]⟩

end Metronome.Text
