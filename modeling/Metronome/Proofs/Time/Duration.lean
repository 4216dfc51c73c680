import Mathlib.Data.List.DropRight
import Mathlib.Data.List.TakeWhile
import Mathlib.Data.Nat.Digits.Defs
import Metronome.Time.Duration

/-!
# The grammar of written durations

A written duration is a concatenation of numbers with units, in any order, or a number alone, and
there may be blanks around it. It is read by splitting it from the left, with numbers that know no
bound, and the sum is compared with its bounds at the end. A reader that goes through the characters
only once, keeps its numbers in words of 64 bits and gives up as soon as one of them does not fit
comes to the same: nothing that is added is negative, and a unit is at least a millisecond, so that
what is too large once stays too large.

## Main definitions

* `Duration.Says`, `Duration.Written` — the grammar, with what a text says in milliseconds
* `Duration.pass`, `Span.parseInWords` — a single pass over the characters, in words of 64 bits

## Main results

* `Duration.milliseconds?_eq_some_iff` — what is read is what the grammar says
* `Duration.pass_eq` — what a single pass yields
* `Span.parse_written` — durations are read as they are written, in words or not
-/

namespace Metronome

/-! ### Blanks -/

namespace Text

variable {c : Char} {before text after : List Char}

theorem isBlank_of_isDigit (h : c.isDigit = true) : isBlank c = false := by
  simp only [Char.isDigit, Bool.and_eq_true, decide_eq_true_eq] at h
  obtain ⟨hlo, hhi⟩ := h
  have hlo : 48 ≤ c.toNat := hlo
  have hhi : c.toNat ≤ 57 := hhi
  simp [isBlank, inRanges, blankRanges]
  omega

/-- Trimming takes away blanks at both ends. -/
theorem exists_trimChars (cs : List Char) : ∃ before after,
    cs = before ++ trimChars cs ++ after ∧ ∀ c ∈ before ++ after, isBlank c = true := by
  have htrim : trimChars cs = (cs.dropWhile isBlank).rdropWhile isBlank := rfl
  refine ⟨cs.takeWhile isBlank, (cs.dropWhile isBlank).rtakeWhile isBlank, ?_, ?_⟩
  · rw [htrim, List.append_assoc, List.rdropWhile_append_rtakeWhile,
      List.takeWhile_append_dropWhile]
  · intro c hc
    rcases List.mem_append.mp hc with hc | hc
    · exact List.mem_takeWhile_imp hc
    · exact List.mem_rtakeWhile_imp hc

/-- Trimming takes away nothing else. -/
theorem trimChars_append (hblank : ∀ c ∈ before ++ after, isBlank c = true)
    (htext : ∀ c ∈ text, isBlank c = false) : trimChars (before ++ text ++ after) = text := by
  have hbefore : ∀ c ∈ before, isBlank c = true := fun c hc =>
    hblank c (List.mem_append_left _ hc)
  have hafter : ∀ c ∈ after, isBlank c = true := fun c hc => hblank c (List.mem_append_right _ hc)
  unfold trimChars
  rw [List.append_assoc, List.dropWhile_append_of_pos hbefore]
  cases text with
  | nil => simp [List.dropWhile_eq_nil_iff.mpr hafter]
  | cons c cs =>
    have hlast : ¬ isBlank ((c :: cs).getLast nofun) = true :=
      Bool.eq_false_iff.mp (htext _ (List.getLast_mem _))
    rw [List.cons_append, List.dropWhile_cons_of_neg (Bool.eq_false_iff.mp (htext c (by simp))),
      ← List.cons_append, List.reverse_append,
      List.dropWhile_append_of_pos fun c hc => hafter c (List.mem_reverse.mp hc)]
    exact List.rdropWhile_eq_self_iff.mpr fun _ => hlast

end Text

namespace Duration

open Text (isBlank trimChars)
open Text.Numeral (readDigits readWord? wordMax)

/-! ### The grammar -/

/-- The number written by decimal digits. -/
def decimal (digits : List Char) : Nat :=
  Nat.ofDigits 10 (digits.reverse.map fun c => c.toNat - '0'.toNat)

/-- A unit of time. -/
inductive TimeUnit
  | day
  | hour
  | minute
  | second
  | millisecond

/-- How a unit is written. -/
def TimeUnit.text : TimeUnit → List Char
  | day => ['d']
  | hour => ['h']
  | minute => ['m']
  | second => ['s']
  | millisecond => ['m', 's']

/-- The milliseconds in a unit. -/
def TimeUnit.length : TimeUnit → Nat
  | day => 24 * 60 * 60 * 1000
  | hour => 60 * 60 * 1000
  | minute => 60 * 1000
  | second => 1000
  | millisecond => 1

/-- At least one digit, and nothing else. -/
def IsNumber (digits : List Char) : Prop := digits ≠ [] ∧ ∀ c ∈ digits, c.isDigit = true

instance (digits : List Char) : Decidable (IsNumber digits) :=
  decidable_of_iff (digits ≠ [] ∧ digits.all Char.isDigit = true) (by simp [IsNumber])

/-- A number with a unit. -/
structure Component where
  digits : List Char
  unit : TimeUnit
  isNumber : IsNumber digits

/-- How a component is written. -/
def Component.text (c : Component) : List Char := c.digits ++ c.unit.text

/-- The milliseconds of a component. -/
def Component.length (c : Component) : Nat := decimal c.digits * c.unit.length

/-- What a text without blanks around it says in milliseconds. There is one component at least, or a
number alone, which counts seconds. -/
inductive Says : List Char → Nat → Prop
  | seconds (digits : List Char) (isNumber : IsNumber digits) : Says digits (decimal digits * 1000)
  | components (cs : List Component) (nonempty : cs ≠ []) :
      Says (cs.flatMap Component.text) (cs.map Component.length).sum

/-- What a text says in milliseconds if blanks around it do not count. -/
def Written (s : String) (ms : Nat) : Prop :=
  ∃ before text after, s.toList = before ++ text ++ after ∧
    (∀ c ∈ before ++ after, isBlank c = true) ∧ Says text ms

/-- The two components differ in zeros in front of the number alone. -/
def Component.Pads (c c' : Component) : Prop :=
  c'.unit = c.unit ∧ ∃ n, c'.digits = List.replicate n '0' ++ c.digits

variable {c : Char} {cs digits rest : List Char} {ms n total : Nat} {units : Bool}

theorem number_concat (digits : List Char) (c : Char) :
    number (digits ++ [c]) = number digits * 10 + (c.toNat - '0'.toNat) := by
  simp [number]

theorem number_eq_decimal (digits : List Char) : number digits = decimal digits := by
  induction digits using List.reverseRecOn with
  | nil => rfl
  | append_singleton digits c ih =>
    rw [number_concat, ih, decimal, decimal, List.reverse_append, List.reverse_singleton,
      List.singleton_append, List.map_cons, Nat.ofDigits_cons]
    omega

/-- Zeros in front make no difference. -/
theorem decimal_replicate (n : Nat) (digits : List Char) :
    decimal (List.replicate n '0' ++ digits) = decimal digits := by
  simp [decimal, Nat.ofDigits_append, Nat.ofDigits_replicate_zero]

theorem IsNumber.replicate (h : IsNumber digits) (n : Nat) :
    IsNumber (List.replicate n '0' ++ digits) := by
  refine ⟨List.append_ne_nil_of_right_ne_nil _ h.1, ?_⟩
  intro c hc
  rcases List.mem_append.mp hc with hzero | hdigit
  · rw [List.eq_of_mem_replicate hzero]
    decide
  · exact h.2 c hdigit

theorem Component.Pads.length_eq {c c' : Component} (h : c.Pads c') : c'.length = c.length := by
  obtain ⟨hunit, n, hdigits⟩ := h
  rw [Component.length, Component.length, hunit, hdigits, decimal_replicate]

/-! ### Units -/

theorem TimeUnit.length_pos (u : TimeUnit) : 0 < u.length := by
  cases u <;> decide

/-- A unit begins with a letter that is no digit. -/
theorem TimeUnit.exists_text (u : TimeUnit) : ∃ c cs, u.text = c :: cs ∧ c.isDigit = false := by
  cases u <;> exact ⟨_, _, rfl, rfl⟩

theorem TimeUnit.isBlank_of_mem {u : TimeUnit} (h : c ∈ u.text) : isBlank c = false := by
  have hall : (u.text.all fun c => !isBlank c) = true := by
    cases u <;> decide
  simpa using List.all_eq_true.mp hall c h

/-- What is read as a unit is one. -/
theorem exists_of_unit? (h : unit? cs = some (ms, rest)) :
    ∃ u : TimeUnit, cs = u.text ++ rest ∧ ms = u.length := by
  unfold unit? at h
  split at h <;> cases h
  · exact ⟨.day, rfl, rfl⟩
  · exact ⟨.hour, rfl, rfl⟩
  · exact ⟨.millisecond, rfl, rfl⟩
  · exact ⟨.minute, rfl, rfl⟩
  · exact ⟨.second, rfl, rfl⟩

/-- A unit is read as such, unless it is the minute with an `s` behind it. -/
theorem unit?_append (u : TimeUnit) (h : rest.head? ≠ some 's') :
    unit? (u.text ++ rest) = some (u.length, rest) := by
  cases u with
  | minute =>
    cases rest with
    | nil => rfl
    | cons c rest =>
      have hc : c ≠ 's' := fun hc => h (by rw [hc, List.head?_cons])
      change unit? ('m' :: c :: rest) = some (60000, c :: rest)
      unfold unit?
      split <;> simp_all
  | _ => rfl

/-! ### Reading components -/

/-- A number is followed by what does not begin with a digit. -/
theorem span_digits (hdigits : ∀ c ∈ digits, c.isDigit = true) (hc : c.isDigit = false)
    (cs : List Char) : (digits ++ c :: cs).takeWhile Char.isDigit = digits ∧
      (digits ++ c :: cs).dropWhile Char.isDigit = c :: cs := by
  have hc := Bool.eq_false_iff.mp hc
  constructor
  · rw [List.takeWhile_append_of_pos hdigits, List.takeWhile_cons_of_neg hc, List.append_nil]
  · rw [List.dropWhile_append_of_pos hdigits, List.dropWhile_cons_of_neg hc]

/-- Components are read one after the other, from the left. -/
theorem components_append (hdigits : IsNumber digits) (hc : c.isDigit = false) :
    components (digits ++ c :: cs) =
      match unit? (c :: cs) with
      | none => none
      | some (ms, rest) => (components rest).map fun total => number digits * ms + total := by
  obtain ⟨htake, hdrop⟩ := span_digits hdigits.2 hc cs
  rw [components, if_neg (by simp), htake, if_neg (by simpa using hdigits.1), hdrop]
  split <;> simp_all

/-- There is no component without a number. -/
theorem components_of_not_digit (hc : c.isDigit = false) : components (c :: cs) = none := by
  rw [components, if_neg (by simp), if_pos (by simp [hc])]

/-- There is no component without a unit. -/
theorem components_of_digits (hdigits : IsNumber digits) : components digits = none := by
  have hdrop : digits.dropWhile Char.isDigit = [] := List.dropWhile_eq_nil_iff.mpr hdigits.2
  rw [components, if_neg (by simpa using hdigits.1),
    if_neg (by simpa [List.takeWhile_eq_self_iff.mpr hdigits.2] using hdigits.1), hdrop]
  rfl

/-- No component begins with a letter. -/
theorem head?_flatMap (cs : List Component) : (cs.flatMap Component.text).head? ≠ some 's' := by
  cases cs with
  | nil => nofun
  | cons c cs =>
    obtain ⟨d, ds, hdigits⟩ := List.exists_cons_of_ne_nil c.isNumber.1
    have hd : d.isDigit = true := c.isNumber.2 d (by simp [hdigits])
    rw [List.flatMap_cons, Component.text, hdigits]
    rintro h
    cases h
    exact absurd hd (by decide)

/-- Components that are written one after the other are read as such. -/
theorem components_flatMap (cs : List Component) :
    components (cs.flatMap Component.text) = some (cs.map Component.length).sum := by
  induction cs with
  | nil =>
    rw [List.flatMap_nil, components]
    rfl
  | cons c cs ih =>
    obtain ⟨d, ds, hunit, hd⟩ := c.unit.exists_text
    have hread := unit?_append c.unit (head?_flatMap cs)
    rw [hunit, List.cons_append] at hread
    rw [List.flatMap_cons, Component.text, hunit, List.append_assoc, List.cons_append,
      components_append c.isNumber hd, hread]
    simp [ih, Component.length, number_eq_decimal]

/-- What is read as components is written as such. -/
theorem exists_of_components (h : components cs = some n) :
    ∃ ks : List Component, cs = ks.flatMap Component.text ∧ n = (ks.map Component.length).sum := by
  fun_induction components cs generalizing n with
  | case1 cs hnil =>
    cases h
    exact ⟨[], List.isEmpty_iff.mp hnil, rfl⟩
  | case2 => cases h
  | case3 => cases h
  | case4 cs hcs hdigits ms rest hunit ih =>
    obtain ⟨total, htotal, rfl⟩ := Option.map_eq_some_iff.mp h
    obtain ⟨ks, rfl, rfl⟩ := ih htotal
    obtain ⟨u, hrest, rfl⟩ := exists_of_unit? hunit
    let k : Component := ⟨cs.takeWhile Char.isDigit, u,
      fun hnil => hdigits (by rw [hnil]; rfl), fun c hc => List.mem_takeWhile_imp hc⟩
    refine ⟨k :: ks, ?_, ?_⟩
    · rw [List.flatMap_cons, Component.text, List.append_assoc, ← hrest,
        List.takeWhile_append_dropWhile]
    · simp [Component.length, k, number_eq_decimal]

/-- Whatever has a unit does not consist of digits. -/
theorem not_all_isDigit {ks : List Component} (h : ks ≠ []) :
    ¬ (ks.flatMap Component.text).all Char.isDigit = true := by
  obtain ⟨k, ks, rfl⟩ := List.exists_cons_of_ne_nil h
  obtain ⟨d, ds, hunit, hd⟩ := k.unit.exists_text
  simp [Component.text, hunit, hd]

/-- What is read of a text without blanks around it is what the grammar says. -/
theorem milliseconds?_eq_some_iff : milliseconds? cs = some n ↔ Says cs n := by
  constructor
  · intro h
    unfold milliseconds? at h
    split at h
    · cases h
    · next hne =>
      split at h
      · next hall =>
        cases h
        rw [number_eq_decimal]
        exact .seconds cs ⟨by simpa using hne, List.all_eq_true.mp hall⟩
      · obtain ⟨ks, rfl, rfl⟩ := exists_of_components h
        refine .components ks ?_
        rintro rfl
        exact hne rfl
  · rintro (⟨digits, hnumber⟩ | ⟨ks, hks⟩)
    · rw [milliseconds?, if_neg (by simpa using hnumber.1),
        if_pos (List.all_eq_true.mpr hnumber.2), number_eq_decimal]
    · have hall := not_all_isDigit hks
      have hne : ¬ (ks.flatMap Component.text).isEmpty = true := fun hnil =>
        hall (by rw [List.isEmpty_iff.mp hnil]; rfl)
      rw [milliseconds?, if_neg hne, if_neg hall, components_flatMap]

/-- There are no blanks in what the grammar knows. -/
theorem Says.isBlank (h : Says cs n) (hc : c ∈ cs) : isBlank c = false := by
  cases h with
  | seconds _ hnumber => exact Text.isBlank_of_isDigit (hnumber.2 c hc)
  | components ks =>
    obtain ⟨k, -, hk⟩ := List.mem_flatMap.mp hc
    rcases List.mem_append.mp hk with hdigit | hunit
    · exact Text.isBlank_of_isDigit (k.isNumber.2 c hdigit)
    · exact TimeUnit.isBlank_of_mem hunit

/-- A text is written as the grammar has it if this is so of the text without blanks around it. -/
theorem written_iff {s : String} : Written s n ↔ milliseconds? (trimChars s.toList) = some n := by
  rw [milliseconds?_eq_some_iff]
  constructor
  · rintro ⟨before, text, after, hs, hblank, hsays⟩
    rwa [hs, Text.trimChars_append hblank fun c hc => hsays.isBlank hc]
  · intro h
    obtain ⟨before, after, hs, hblank⟩ := Text.exists_trimChars s.toList
    exact ⟨before, _, after, hs, hblank, h⟩

/-! ### A single pass in words of 64 bits -/

/-- A number, as long as it fits a word of 64 bits. -/
def word? (n : Nat) : Option Nat := if n ≤ wordMax then some n else none

/-- The sum of `total` and of what the characters say, in a single pass over them. The digits since
the last unit are kept aside, and whether there has been a unit. Every number is kept in a word of
64 bits. -/
def pass (total : Nat) (digits : List Char) (units : Bool) (cs : List Char) : Option Nat :=
  match cs with
  | [] =>
    if digits.isEmpty then some total
    -- a number without a unit has to stand alone
    else if units then none
    else (readWord? digits).bind fun n => word? (n * 1000)
  | c :: rest =>
    if c.isDigit then pass total (digits ++ [c]) units rest
    else
      match readWord? digits with
      | none => none
      | some n =>
        match _h : unit? (c :: rest) with
        | none => none
        | some (ms, rest) =>
          match (word? (n * ms)).bind fun part => word? (total + part) with
          | none => none
          | some total => pass total [] true rest
termination_by cs.length
decreasing_by
  · simp
  · have := unit?_length _h
    simpa using this

end Duration

/-- The length of a written duration, read in a single pass and in words of 64 bits. -/
def Span.parseInWords (s : String) : Option Span :=
  let cs := Text.trimChars s.toList
  if cs.isEmpty then none
  else
    match Duration.pass 0 [] false cs with
    | none => none
    | some total => if total = 0 then none else some (.ofMillis total)

namespace Duration

open Text (isBlank trimChars)
open Text.Numeral (readDigits readWord? wordMax)

variable {c : Char} {cs digits rest : List Char} {ms n total : Nat} {units : Bool}

/-- The digits that are yet to come do not make a number smaller. -/
theorem le_foldl_digits (n : Nat) (digits : List Char) :
    n ≤ digits.foldl (fun n c => n * 10 + (c.toNat - '0'.toNat)) n := by
  induction digits generalizing n with
  | nil => exact Nat.le_refl n
  | cons c digits ih =>
    have hrest := ih (n * 10 + (c.toNat - '0'.toNat))
    rw [List.foldl_cons]
    omega

/-- Digits are read up to the point where the number does not fit any more. -/
theorem readDigits_of_digits (hdigits : ∀ c ∈ digits, c.isDigit = true) (hn : n ≤ wordMax) :
    (readDigits wordMax n digits).toOption =
      word? (digits.foldl (fun n c => n * 10 + (c.toNat - '0'.toNat)) n) := by
  induction digits generalizing n with
  | nil => exact (if_pos hn).symm
  | cons c digits ih =>
    have hc : Text.digit? c = some (c.toNat - '0'.toNat) := if_pos (hdigits c List.mem_cons_self)
    rw [readDigits, hc, List.foldl_cons]
    dsimp only
    split
    · next hlarge =>
      have hrest := le_foldl_digits (n * 10 + (c.toNat - '0'.toNat)) digits
      exact (if_neg (by omega)).symm
    · next hfits =>
      exact ih (fun c hc => hdigits c (List.mem_cons_of_mem _ hc)) (Nat.le_of_not_lt hfits)

/-- A number is read if it fits a word. -/
theorem readWord?_of_isNumber (h : IsNumber digits) : readWord? digits = word? (number digits) := by
  obtain ⟨d, ds, rfl⟩ := List.exists_cons_of_ne_nil h.1
  have hd : d ≠ '+' := by
    rintro rfl
    exact absurd (h.2 '+' List.mem_cons_self) (by decide)
  have hread : Text.Numeral.read wordMax (d :: ds) = readDigits wordMax 0 (d :: ds) := by
    unfold Text.Numeral.read
    split <;> simp_all
  rw [readWord?, hread, readDigits_of_digits h.2 (Nat.zero_le _), number]

theorem word?_eq_some_iff : word? total = some n ↔ total ≤ wordMax ∧ total = n := by
  simp [word?]

theorem word?_eq_none (h : wordMax < n) : word? n = none := if_neg (Nat.not_le.mpr h)

theorem word?_eq_some (h : n ≤ wordMax) : word? n = some n := if_pos h

/-- A number that was read is the one that is written. -/
theorem readWord?_eq_some (hdigits : ∀ c ∈ digits, c.isDigit = true)
    (h : readWord? digits = some n) : IsNumber digits ∧ number digits = n := by
  have hnumber : IsNumber digits := by
    refine ⟨?_, hdigits⟩
    rintro rfl
    cases h
  rw [readWord?_of_isNumber hnumber, word?] at h
  split at h
  · exact ⟨hnumber, Option.some.inj h⟩
  · cases h

/-- A sum does not fit a word if one of its parts does not. -/
theorem bind_word?_eq_none (h : wordMax < total + n) (sums : Option Nat) :
    ((sums.map (n + ·)).bind fun sum => word? (total + sum)) = none := by
  cases sums with
  | none => rfl
  | some sum => exact word?_eq_none (Nat.lt_of_lt_of_le h (by dsimp only; omega))

/-- After a unit, or with one yet to come, a single pass yields the sum of the components, if this
fits a word. -/
theorem pass_eq (hunits : units = true ∨ ¬ cs.all Char.isDigit = true)
    (hdigits : ∀ c ∈ digits, c.isDigit = true) (htotal : total ≤ wordMax) :
    pass total digits units cs =
      (components (digits ++ cs)).bind fun sum => word? (total + sum) := by
  fun_induction pass total digits units cs with
  | case1 total digits units hnil =>
    rw [List.isEmpty_iff.mp hnil, List.append_nil, components]
    exact (word?_eq_some htotal).symm
  | case2 total digits hne =>
    rw [List.append_nil, components_of_digits ⟨by simpa using hne, hdigits⟩]
    rfl
  | case3 total digits units hne hfirst =>
    rcases hunits with hunits | hunits
    · exact absurd hunits hfirst
    · exact absurd rfl hunits
  | case4 total digits units c rest hc ih =>
    rw [ih ?_ ?_ htotal, List.append_assoc, List.singleton_append]
    · simpa [hc] using hunits
    · intro d hd
      rcases List.mem_append.mp hd with hd | hd
      · exact hdigits d hd
      · rwa [List.mem_singleton.mp hd]
  | case5 total digits units c rest hc hread =>
    rw [Bool.not_eq_true] at hc
    by_cases hnil : digits = []
    · rw [hnil, List.nil_append, components_of_not_digit hc]
      rfl
    · -- the number in front of the unit is too large, and so is the sum
      have hnumber : IsNumber digits := ⟨hnil, hdigits⟩
      rw [readWord?_of_isNumber hnumber] at hread
      have hlarge : wordMax < number digits := by
        by_contra hfits
        rw [word?_eq_some (Nat.le_of_not_lt hfits)] at hread
        cases hread
      rw [components_append hnumber hc]
      split
      · rfl
      · next ms rest' hunit =>
        obtain ⟨u, -, rfl⟩ := exists_of_unit? hunit
        have hmul := Nat.le_mul_of_pos_right (number digits) u.length_pos
        exact (bind_word?_eq_none (by omega) _).symm
  | case6 total digits units c rest hc n hread hunit =>
    obtain ⟨hnumber, rfl⟩ := readWord?_eq_some hdigits hread
    rw [components_append hnumber (Bool.eq_false_iff.mpr hc), hunit]
    rfl
  | case7 total digits units c rest hc n hread ms rest' hunit hsum =>
    obtain ⟨hnumber, rfl⟩ := readWord?_eq_some hdigits hread
    rw [components_append hnumber (Bool.eq_false_iff.mpr hc), hunit]
    refine (bind_word?_eq_none ?_ _).symm
    by_contra hfits
    rw [word?_eq_some (by omega : number digits * ms ≤ wordMax), Option.bind_some,
      word?_eq_some (by omega)] at hsum
    cases hsum
  | case8 total digits units c rest hc n hread ms rest' hunit total' hsum ih =>
    obtain ⟨hnumber, rfl⟩ := readWord?_eq_some hdigits hread
    obtain ⟨part, hpart, htotal'⟩ := Option.bind_eq_some_iff.mp hsum
    obtain ⟨-, rfl⟩ := word?_eq_some_iff.mp hpart
    obtain ⟨hfits, rfl⟩ := word?_eq_some_iff.mp htotal'
    rw [ih (Or.inl rfl) nofun hfits, List.nil_append,
      components_append hnumber (Bool.eq_false_iff.mpr hc), hunit, Option.bind_map]
    simp only [Function.comp_def, Nat.add_assoc]

/-- A number alone counts seconds. -/
theorem pass_of_digits (hnumber : IsNumber (digits ++ cs)) :
    pass total digits false cs = word? (number (digits ++ cs) * 1000) := by
  induction cs generalizing digits with
  | nil =>
    rw [List.append_nil] at hnumber ⊢
    rw [pass, if_neg (by simpa using hnumber.1), if_neg (by decide),
      readWord?_of_isNumber hnumber]
    by_cases hfits : number digits ≤ wordMax
    · rw [word?_eq_some hfits, Option.bind_some]
    · rw [word?_eq_none (by omega), word?_eq_none (by omega), Option.bind_none]
  | cons c cs ih =>
    have hc : c.isDigit = true := hnumber.2 c (by simp)
    rw [pass, if_pos hc, ih (by simpa using hnumber), List.append_assoc, List.singleton_append]

/-- A single pass over a text without blanks around it yields what is read otherwise, if this fits a
word. -/
theorem pass_eq_bind (h : cs ≠ []) : pass 0 [] false cs = (milliseconds? cs).bind word? := by
  rw [milliseconds?, if_neg (by simpa using h)]
  split
  · next hall => exact pass_of_digits ⟨h, List.all_eq_true.mp hall⟩
  · next hall =>
    rw [pass_eq (Or.inr hall) (by simp) (Nat.zero_le _), List.nil_append]
    simp only [Nat.zero_add]

end Duration

namespace Span

open Duration (Component IsNumber Says Written)

variable {s : String} {d : Span}

/-- In words of 64 bits nothing else is read. -/
theorem parseInWords_eq (s : String) : parseInWords s = parse s := by
  unfold parseInWords parse
  dsimp only
  split
  · next hnil =>
    rw [Duration.milliseconds?, if_pos hnil]
  · next hne =>
    rw [Duration.pass_eq_bind (by simpa using hne)]
    cases Duration.milliseconds? (Text.trimChars s.toList) with
    | none => rfl
    | some ms =>
      rw [Option.bind_some, Duration.word?]
      by_cases hfits : ms ≤ Text.Numeral.wordMax
      · rw [if_pos hfits]
        simp [hfits, Nat.pos_iff_ne_zero]
      · simp [hfits]

theorem parse_eq_some_iff : parse s = some d ↔
    ∃ ms, Written s ms ∧ 1 ≤ ms ∧ ms ≤ 2 ^ 64 - 1 ∧ d = .ofMillis ms := by
  simp only [Duration.written_iff]
  unfold parse
  cases Duration.milliseconds? (Text.trimChars s.toList) with
  | none => simp
  | some ms =>
    simp only [Option.some.injEq, exists_eq_left']
    by_cases hbounds : 0 < ms ∧ ms ≤ Text.Numeral.wordMax
    · rw [if_pos hbounds, Option.some.injEq]
      exact ⟨fun hd => ⟨hbounds.1, hbounds.2, hd.symm⟩, fun hd => hd.2.2.symm⟩
    · rw [if_neg hbounds]
      exact iff_of_false nofun fun hd => hbounds ⟨hd.1, hd.2.1⟩

/-- Texts that say the same are read alike. -/
theorem parse_congr {text text' : List Char} {ms : Nat} (h : Says text ms) (h' : Says text' ms) :
    parse (String.ofList text) = parse (String.ofList text') := by
  have hread {text : List Char} (h : Says text ms) :
      Duration.milliseconds? (Text.trimChars (String.ofList text).toList) = some ms :=
    Duration.written_iff.mp ⟨[], text, [], by simp, by simp, h⟩
  unfold parse
  rw [hread h, hread h']

theorem parse_components {cs cs' : List Component}
    (h : (cs.map Component.length).sum = (cs'.map Component.length).sum)
    (hnil : cs = [] ↔ cs' = []) :
    parse (String.ofList (cs.flatMap Component.text)) =
      parse (String.ofList (cs'.flatMap Component.text)) := by
  by_cases hcs : cs = []
  · rw [hcs, hnil.mp hcs]
  · exact parse_congr (.components cs hcs) (h ▸ .components cs' (mt hnil.mpr hcs))

/-- A text is read exactly if the grammar knows it and what it says fits a word and is not zero, and
then it is read as what it says. A reader whose numbers are words does the same. The order of the
components does not matter, nor do zeros in front of a number. -/
theorem parse_written :
    (∀ s d, parse s = some d ↔
      ∃ ms, Written s ms ∧ 1 ≤ ms ∧ ms ≤ 2 ^ 64 - 1 ∧ d = .ofMillis ms) ∧
    (∀ s, parseInWords s = parse s) ∧
    (∀ cs cs' : List Component, cs.Perm cs' →
      parse (String.ofList (cs.flatMap Component.text)) =
        parse (String.ofList (cs'.flatMap Component.text))) ∧
    (∀ cs cs' : List Component, List.Forall₂ Component.Pads cs cs' →
      parse (String.ofList (cs.flatMap Component.text)) =
        parse (String.ofList (cs'.flatMap Component.text))) ∧
    ∀ (n : Nat) (digits : List Char), IsNumber digits →
      parse (String.ofList (List.replicate n '0' ++ digits)) = parse (String.ofList digits) := by
  refine ⟨fun s d => parse_eq_some_iff, parseInWords_eq, ?_, ?_, ?_⟩
  · intro cs cs' hperm
    refine parse_components (hperm.map Component.length).sum_nat ?_
    exact ⟨fun hnil => (hnil ▸ hperm).nil_eq.symm, fun hnil => (hnil ▸ hperm).eq_nil⟩
  · intro cs cs' hpads
    refine parse_components ?_ ?_
    · induction hpads with
      | nil => rfl
      | cons hpad _ ih =>
        rw [List.map_cons, List.map_cons, List.sum_cons, List.sum_cons, hpad.length_eq, ih]
    · cases hpads with
      | nil => exact Iff.rfl
      | cons => exact iff_of_false nofun nofun
  · intro n digits hdigits
    have hpadded : Says (List.replicate n '0' ++ digits) (Duration.decimal digits * 1000) := by
      rw [← Duration.decimal_replicate n]
      exact .seconds _ (hdigits.replicate n)
    exact parse_congr hpadded (.seconds digits hdigits)

/-- An hour and a half, in either order, with and without zeros in front and blanks around it. -/
theorem parse_written_hourAndHalf :
    parse " 1h30m\n" = some (.ofMillis 5400000) ∧ parse "1h30m" = parse "30m1h" ∧
      parse "1h30m" = parse "001h30m" ∧ parse "005400" = parse "5400" := by
  obtain ⟨hread, -, hperm, hpads, hzeros⟩ := parse_written
  let hour : Component := ⟨['1'], .hour, by decide⟩
  let half : Component := ⟨['3', '0'], .minute, by decide⟩
  let padded : Component := ⟨['0', '0', '1'], .hour, by decide⟩
  have hlength : ([hour, half].map Component.length).sum = 5400000 := by
    simp [hour, half, Component.length, Duration.TimeUnit.length, Duration.decimal, Nat.ofDigits]
  have hsays : Says ['1', 'h', '3', '0', 'm'] 5400000 := hlength ▸ .components [hour, half] nofun
  refine ⟨(hread _ _).mpr ⟨5400000, ?_, by omega, by omega, rfl⟩, ?_, ?_, ?_⟩
  · exact ⟨[' '], ['1', 'h', '3', '0', 'm'], ['\n'], rfl, List.all_eq_true.mp (by decide), hsays⟩
  · exact hperm [hour, half] [half, hour] (.swap half hour [])
  · exact hpads [hour, half] [padded, half]
      (.cons ⟨rfl, 2, rfl⟩ (.cons ⟨rfl, 0, rfl⟩ .nil))
  · exact hzeros 2 ['5', '4', '0', '0'] (by decide)

end Span

end Metronome
