import Metronome.Cron.Pattern

/-!
# Reading cron patterns

A pattern is either a shorthand such as `@daily`, or a sequence of six fields and optionally a
seventh for the year. Fields are not separated as such: blanks are only what fields and
numbers leave aside around themselves, and each part of the text takes the first written form
that fits it, for good.

## Main definitions

* `ordinal`, `name` — a number and a name with the blanks around them
* `selector`, `item`, `items` — the parts of a field
* `Pattern.parse` — the pattern of a text

## Main results

* `item_length` — an item is never empty
-/

namespace Metronome.Cron

/-- Blanks between the parts of a pattern. -/
def isGap (c : Char) : Bool := c == ' ' || c == '\t' || c == '\r' || c == '\n'

/-- What remains after the blanks in front. -/
def skipGap (cs : List Char) : List Char := cs.dropWhile isGap

/-- A non-empty run of characters of a class with the blanks around it, and what remains. -/
def run (ok : Char → Bool) (cs : List Char) : Option (List Char × List Char) :=
  let body := skipGap cs
  if (body.takeWhile ok).isEmpty then none
  else some (body.takeWhile ok, skipGap (body.dropWhile ok))

/-- The greatest number that a pattern may mention. -/
def ordinalMax : Nat := 4294967295

/-- A number, with the blanks around it. -/
def ordinal (cs : List Char) : Option (Nat × List Char) :=
  match run Char.isDigit cs with
  | some (digits, rest) =>
    let value := digits.foldl (fun n c => n * 10 + (c.toNat - '0'.toNat)) 0
    if value ≤ ordinalMax then some (value, rest) else none
  | none => none

/-- A name made of letters, with the blanks around it. -/
def name (cs : List Char) : Option (List Char × List Char) := run Char.isAlpha cs

/-- Two parts with a hyphen between them. -/
def hyphenated {α : Type} (part : List Char → Option (α × List Char)) (cs : List Char) :
    Option ((α × α) × List Char) :=
  match part cs with
  | some (lo, '-' :: rest) => (part rest).map fun (hi, rest) => ((lo, hi), rest)
  | _ => none

/-- A choice of values: all of them, a range of numbers, a number or a range of names. -/
def selector (c : Component) (cs : List Char) : Option (Selector × List Char) :=
  match cs with
  | '*' :: rest => some (.all, rest)
  | cs =>
    match c.allowsQuestionMark, cs with
    | true, '?' :: rest => some (.all, rest)
    | _, cs =>
      match hyphenated ordinal cs with
      | some ((lo, hi), rest) => some (.range lo hi, rest)
      | none =>
        match ordinal cs with
        | some (n, rest) => some (.single n, rest)
        | none => (hyphenated name cs).map fun ((lo, hi), rest) => (.namedRange lo hi, rest)

/-- An item: a selector with a step, a selector, or a name. -/
def item (c : Component) (cs : List Char) : Option (Item × List Char) :=
  match selector c cs with
  | some (s, '/' :: rest) =>
    match ordinal rest with
    | some (n, rest) => some (.stepped s n, rest)
    | none => some (.select s, '/' :: rest)
  | some (s, rest) => some (.select s, rest)
  | none => (name cs).map fun (n, rest) => (.named n, rest)

/-! ### Readers consume -/

theorem skipGap_length (cs : List Char) : (skipGap cs).length ≤ cs.length :=
  (List.dropWhile_sublist isGap).length_le

theorem run_length {ok : Char → Bool} {cs : List Char} {r : List Char × List Char}
    (h : run ok cs = some r) : r.2.length < cs.length := by
  simp only [run] at h
  split at h
  case isTrue => cases h
  case isFalse hne =>
    cases h
    have hsplit := congrArg List.length (@List.takeWhile_append_dropWhile _ ok (skipGap cs))
    have hpos : 0 < ((skipGap cs).takeWhile ok).length := by
      simpa [List.length_pos_iff] using hne
    have := skipGap_length cs
    have := skipGap_length ((skipGap cs).dropWhile ok)
    simp only [List.length_append] at hsplit ⊢
    omega

theorem ordinal_length {cs : List Char} {r : Nat × List Char} (h : ordinal cs = some r) :
    r.2.length < cs.length := by
  unfold ordinal at h
  split at h
  case h_1 hr =>
    dsimp only at h
    split at h <;> cases h
    exact run_length hr
  case h_2 => cases h

theorem name_length {cs : List Char} {r : List Char × List Char} (h : name cs = some r) :
    r.2.length < cs.length := run_length h

theorem hyphenated_length {α : Type} {part : List Char → Option (α × List Char)}
    (hpart : ∀ cs r, part cs = some r → r.2.length < cs.length) {cs : List Char}
    {r : (α × α) × List Char} (h : hyphenated part cs = some r) : r.2.length < cs.length := by
  unfold hyphenated at h
  split at h
  case h_1 lo rest hlo =>
    obtain ⟨s, hs, rfl⟩ := Option.map_eq_some_iff.1 h
    have := hpart _ _ hlo
    have := hpart _ _ hs
    simp only [List.length_cons] at *
    omega
  case h_2 => cases h

theorem selector_length {c : Component} {cs : List Char} {r : Selector × List Char}
    (h : selector c cs = some r) : r.2.length < cs.length := by
  unfold selector at h
  split at h
  case h_1 => cases h; simp
  case h_2 =>
    split at h
    case h_1 => cases h; simp
    case h_2 =>
      split at h
      case h_1 hs =>
        cases h
        exact hyphenated_length (fun _ _ => ordinal_length) hs
      case h_2 =>
        split at h
        case h_1 hs => cases h; exact ordinal_length hs
        case h_2 =>
          obtain ⟨s, hs, rfl⟩ := Option.map_eq_some_iff.1 h
          exact hyphenated_length (fun _ _ => name_length) hs

/-- An item takes at least one character. -/
theorem item_length {c : Component} {cs : List Char} {r : Item × List Char}
    (h : item c cs = some r) : r.2.length < cs.length := by
  unfold item at h
  split at h
  case h_1 s rest hs =>
    have hlt := selector_length hs
    split at h
    case h_1 hn =>
      cases h
      have := ordinal_length hn
      simp only [List.length_cons] at *
      omega
    case h_2 => cases h; exact hlt
  case h_2 s rest _ hs => cases h; exact selector_length hs
  case h_3 =>
    obtain ⟨s, hs, rfl⟩ := Option.map_eq_some_iff.1 h
    exact name_length hs

/-! ### Fields and patterns -/

/-- The further items of a field, each after a comma. -/
def moreItems (c : Component) (cs : List Char) : List Item × List Char :=
  match cs with
  | ',' :: rest =>
    match h : item c rest with
    | some (i, tail) =>
      have : tail.length < rest.length := item_length h
      let (is, tail) := moreItems c tail
      (i :: is, tail)
    | none => ([], cs)
  | _ => ([], cs)
termination_by cs.length

/-- A field: at least one item, with the blanks around them. -/
def items (c : Component) (cs : List Char) : Option (List Item × List Char) :=
  match item c (skipGap cs) with
  | some (i, rest) =>
    let (is, rest) := moreItems c rest
    some (i :: is, skipGap rest)
  | none => none

/-- The values of the field in front and what remains. -/
def field (c : Component) (cs : List Char) : Option (List Nat × List Char) := do
  let (is, rest) ← items c cs
  let values ← fieldValues c is
  return (values, rest)

/-- The patterns that have a name. Weeks start on Sunday. -/
def shorthands : List (String × Pattern) :=
  let every (c : Component) := c.all
  [("@yearly", ⟨[0], [0], [0], [1], [1], every .dayOfWeek, every .year⟩),
    ("@monthly", ⟨[0], [0], [0], [1], every .month, every .dayOfWeek, every .year⟩),
    ("@weekly", ⟨[0], [0], [0], every .dayOfMonth, every .month, [1], every .year⟩),
    ("@daily", ⟨[0], [0], [0], every .dayOfMonth, every .month, every .dayOfWeek, every .year⟩),
    ("@hourly", ⟨[0], [0], every .hour, every .dayOfMonth, every .month, every .dayOfWeek,
      every .year⟩)]

/-- The shorthand that a text consists of. -/
def shorthand? (cs : List Char) : Option Pattern :=
  let body := ((skipGap cs).reverse.dropWhile isGap).reverse
  (shorthands.find? fun (word, _) => word.toList == body).map Prod.snd

/-- The pattern whose fields a text consists of. A year that makes no sense counts as absent,
and then nothing may follow the six fields. -/
def fields? (cs : List Char) : Option Pattern := do
  let (seconds, cs) ← field .second cs
  let (minutes, cs) ← field .minute cs
  let (hours, cs) ← field .hour cs
  let (daysOfMonth, cs) ← field .dayOfMonth cs
  let (months, cs) ← field .month cs
  let (daysOfWeek, cs) ← field .dayOfWeek cs
  let (years, cs) := (field .year cs).getD (Component.year.all, cs)
  if cs.isEmpty then
    some ⟨seconds, minutes, hours, daysOfMonth, months, daysOfWeek, years⟩
  else none

/-- The pattern of a text. -/
def Pattern.parse (s : String) : Option Pattern :=
  shorthand? s.toList <|> fields? s.toList

end Metronome.Cron
