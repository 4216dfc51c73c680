import Metronome.Proofs.Cron.Shifted
import Metronome.Proofs.Text.Words
import Metronome.Schedule.Recurrence

/-!
# Patterns that begin with minutes

A recurrence takes a text of exactly five words for a pattern that begins with the minutes, and puts
the seconds field `0` in front of it. Words are divided by blanks. The fields of a pattern need no
blanks between them and may have some within, so that five words may well be a pattern as they
stand, such as `* ** * * *` for every second. The field in front then changes what the pattern says.

All other texts are left as they are, blanks at the ends apart. In particular these are shorthands,
which are one word, and fields with blanks between them, which are six words at least.

## Main definitions

* `Recurrence.Follows` — the recurrences of a text follow a pattern

## Main results

* `Recurrence.normalize_normalize` — a text that was normalized stays as it is
* `Recurrence.normalize_keeps` — what becomes of a text that is a pattern as it stands
-/

namespace Metronome

open Text (Trimmed Columns trim trimChars words wordCount isBlank)

namespace Cron

variable {cs : List Char} {p : Pattern}

theorem isBlank_of_isGap (c : Char) (h : isGap c = true) : isBlank c = true := by
  simp only [isGap, Bool.or_eq_true, beq_iff_eq] at h
  rcases h with ((rfl | rfl) | rfl) | rfl <;> decide

theorem skipGap_of_trimmed (h : Trimmed cs) : skipGap cs = cs :=
  h.dropWhile_eq_self isBlank_of_isGap

/-- A shorthand is one word. -/
theorem words_of_shorthand? (h : shorthand? cs = some p) : (words cs).length = 1 := by
  obtain ⟨e, he, rfl⟩ := Option.map_eq_some_iff.mp h
  have hbody := List.find?_some he
  have hone : ∀ e ∈ shorthands, (words e.1.toList).length = 1 := by decide +kernel
  rw [← Text.words_dropWhile isBlank_of_isGap cs]
  rw [← hone e (List.mem_of_find?_eq_some he)]
  exact congrArg (fun cs => (words cs).length) (beq_iff_eq.mp hbody).symm

/-- The pattern of the given times of day. -/
def Pattern.daily (seconds minutes hours : List Nat) : Pattern where
  seconds := seconds
  minutes := minutes
  hours := hours
  daysOfMonth := Component.dayOfMonth.all
  months := Component.month.all
  daysOfWeek := Component.dayOfWeek.all
  years := Component.year.all

def Pattern.everyMinute : Pattern := .daily [0] Component.minute.all Component.hour.all

def Pattern.everySecond : Pattern :=
  .daily Component.second.all Component.minute.all Component.hour.all

end Cron

namespace Recurrence

variable {s : String} {p q : Cron.Pattern}

/-! ### The text of a recurrence -/

theorem normalize_eq (s : String) :
    normalize s = if wordCount s = 5 then "0 " ++ trim s else trim s := by
  rw [← Text.wordCount_trim s]
  rfl

theorem normalize_of_five (h : wordCount s = 5) : normalize s = "0 " ++ trim s :=
  (normalize_eq s).trans (if_pos h)

theorem normalize_of_ne_five (h : wordCount s ≠ 5) : normalize s = trim s :=
  (normalize_eq s).trans (if_neg h)

theorem toList_zero_append (s : String) : ("0 " ++ s).toList = '0' :: ' ' :: s.toList := by
  rw [String.toList_append]
  rfl

/-- The seconds field in front is one more word. -/
theorem wordCount_zero_append (s : String) : wordCount ("0 " ++ s) = wordCount s + 1 := by
  unfold wordCount
  rw [toList_zero_append]
  rfl

theorem wordCount_normalize (s : String) : wordCount (normalize s) ≠ 5 := by
  by_cases h : wordCount s = 5
  · rw [normalize_of_five h, wordCount_zero_append, Text.wordCount_trim, h]
    decide
  · rwa [normalize_of_ne_five h, Text.wordCount_trim]

theorem trimmed_normalize (s : String) : Trimmed (normalize s).toList := by
  by_cases h : wordCount s = 5
  · have hne : (trim s).toList ≠ [] := by
      intro hnil
      rw [← Text.wordCount_trim, wordCount, hnil] at h
      cases h
    rw [normalize_of_five h, toList_zero_append]
    exact (Text.trimmed_trim s).append hne (by decide) [' ']
  · rw [normalize_of_ne_five h]
    exact Text.trimmed_trim s

/-- A text that was normalized stays as it is. -/
theorem normalize_normalize (s : String) : normalize (normalize s) = normalize s := by
  rw [normalize_of_ne_five (wordCount_normalize s), Text.trim_eq_self (trimmed_normalize s)]

/-! ### The pattern of a recurrence -/

/-- The recurrences of a text follow a pattern: they can be started as long as it has another
occurrence, and then it is theirs. -/
def Follows (s : String) (p : Cron.Pattern) : Prop :=
  ∀ cap width tick now, (start? s cap width tick now).map pattern =
    match p.next? now with
    | some _ => .ok p
    | none => .error .noOccurrence

theorem follows_of_parse (h : Cron.Pattern.parse (normalize s) = some p) : Follows s p := by
  intro cap width tick now
  unfold start?
  dsimp only
  rw [h]
  dsimp only
  cases p.next? now <;> rfl

/-- A pattern of five words loses an occurrence, unless it has none. -/
theorem exists_lost_of_five (hp : Cron.Pattern.parse (trim s) = some p) (h : wordCount s = 5)
    (hq : Cron.Pattern.parse (normalize s) = some q) {t : Instant} (ht : p.Occurs t) :
    ∃ t, p.Occurs t ∧ ¬ q.Occurs t := by
  -- neither text is a shorthand, which would be one word
  have hfields {s : String} {p : Cron.Pattern} (hs : wordCount s ≠ 1)
      (hparse : Cron.Pattern.parse s = some p) : Cron.fields? s.toList = some p :=
    ((Option.orElse_eq_some ..).mp hparse).elim
      (fun hshort => absurd (Cron.words_of_shorthand? hshort) hs) And.right
  have hp := hfields (by rw [Text.wordCount_trim, h]; decide) hp
  have hq := hfields (by
    rw [normalize_of_five h, wordCount_zero_append, Text.wordCount_trim, h]
    decide) hq
  rw [normalize_of_five h, toList_zero_append] at hq
  exact Cron.Pattern.exists_lost (Cron.skipGap_of_trimmed (Text.trimmed_trim s)) hp hq ht

/-- What becomes of a text that is a pattern as it stands, blanks at its ends apart. Unless it has
exactly five words, it is left as it is and its recurrences follow the pattern; in particular this
holds for shorthands, and for six columns and more. A text of five words is always given the seconds
field `0`, and if it was a pattern with an occurrence already, an occurrence is lost. Nothing is
done to a text that was normalized. -/
theorem normalize_keeps (s : String) :
    (∀ p, Cron.Pattern.parse (trim s) = some p →
      (wordCount s ≠ 5 → normalize s = trim s ∧ Follows s p) ∧
      (wordCount s = 5 → (∃ t, p.Occurs t) →
        ∀ q, Cron.Pattern.parse (normalize s) = some q → ∃ t, p.Occurs t ∧ ¬ q.Occurs t)) ∧
    ((∃ p, Cron.shorthand? (trim s).toList = some p) ∨ (∃ n, 6 ≤ n ∧ Columns n s.toList) →
      wordCount s ≠ 5) ∧
    (wordCount s = 5 → normalize s = "0 " ++ trim s) ∧
    normalize (normalize s) = normalize s := by
  refine ⟨fun p hp => ⟨fun h => ?_, fun h ⟨t, ht⟩ q hq => exists_lost_of_five hp h hq ht⟩, ?_,
    normalize_of_five, normalize_normalize s⟩
  · have hsame : normalize s = trim s := normalize_of_ne_five h
    exact ⟨hsame, follows_of_parse (by rw [hsame, hp])⟩
  · rintro (⟨p, hp⟩ | ⟨n, hn, hcolumns⟩) hfive
    · have hone : wordCount (trim s) = 1 := Cron.words_of_shorthand? hp
      rw [Text.wordCount_trim, hfive] at hone
      cases hone
    · have hsix : n ≤ wordCount s := hcolumns.le_words
      omega

/-- Six columns and a shorthand are left as they are. Every second, with two of its six fields
written as one word, becomes every minute and loses the other seconds. -/
theorem normalize_keeps_daily :
    (normalize "\t0 30 9 * * *\n" = "0 30 9 * * *" ∧
      Follows "\t0 30 9 * * *\n" (.daily [0] [30] [9])) ∧
    (normalize "@daily" = "@daily" ∧ Follows "@daily" (.daily [0] [0] [0])) ∧
    normalize "* ** * * *" = "0 * ** * * *" ∧
    ∃ t, Cron.Pattern.everySecond.Occurs t ∧ ¬ Cron.Pattern.everyMinute.Occurs t := by
  obtain ⟨hcolumns, hsix, -, -⟩ := normalize_keeps "\t0 30 9 * * *\n"
  obtain ⟨hshort, hone, -, -⟩ := normalize_keeps "@daily"
  obtain ⟨hadjacent, -, hfive, -⟩ := normalize_keeps "* ** * * *"
  have hwords : wordCount "* ** * * *" = 5 := by decide +kernel
  refine ⟨(hcolumns _ (by decide +kernel)).1 (hsix (.inr ⟨6, le_rfl, ?_⟩)),
    (hshort _ (by decide +kernel)).1 (hone (.inl ⟨.daily [0] [0] [0], by decide +kernel⟩)),
    hfive hwords,
    (hadjacent _ (by decide +kernel)).2 hwords ⟨.ofSecs 0, ?_⟩ _ (by decide +kernel)⟩
  · have hblank : isBlank ' ' = true := by decide
    have hdigit : ∃ c ∈ ['9'], isBlank c = false := ⟨'9', by simp, by decide⟩
    have hstar : ∃ c ∈ ['*'], isBlank c = false := ⟨'*', by simp, by decide⟩
    have htime : Columns 3 (['\t', '0'] ++ ' ' :: ['3', '0'] ++ ' ' :: ['9']) :=
      ((Columns.single ⟨'0', by simp, by decide⟩).append hblank ⟨'3', by simp, by decide⟩).append
        hblank hdigit
    have hdate := (htime.append hblank hstar).append hblank hstar
    have hweekday : ∃ c ∈ ['*', '\n'], isBlank c = false := ⟨'*', by simp, by decide⟩
    simpa using hdate.append hblank hweekday
  · exact ⟨0, (Cron.Pattern.matchesSecond_iff 0).mp (by decide +kernel), rfl⟩

/-- Every second, with two of its six fields written as one word, is read as such, but becomes
every minute. -/
theorem everySecond_of_five_words :
    wordCount "* ** * * *" = 5 ∧
      Cron.Pattern.parse (trim "* ** * * *") = some .everySecond ∧
      Cron.Pattern.parse (normalize "* ** * * *") = some .everyMinute ∧
      Cron.Pattern.everySecond.Occurs (.ofSecs 1) ∧
      ¬ Cron.Pattern.everyMinute.Occurs (.ofSecs 1) := by
  refine ⟨by decide +kernel, by decide +kernel, by decide +kernel, ⟨1, ?_, rfl⟩, fun hlost => ?_⟩
  · exact (Cron.Pattern.matchesSecond_iff 1).mp (by decide +kernel)
  · exact absurd (Cron.Pattern.occurs_ofSecs_iff.mp hlost).second (by decide)

end Recurrence

end Metronome
