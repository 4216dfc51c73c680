import Metronome.Cron.Parser
import Metronome.Proofs.Cron.Search
import Metronome.Proofs.Time.Calendar

/-!
# Occurrences of a cron pattern

A pattern occurs at every whole second whose date and time it admits, from the beginning of the
calendar to its end. The search for the next occurrence looks only at the years that a pattern can
speak of. Since a pattern that was read names no other year, it finds the first of all occurrences.

## Main definitions

* `Pattern.Admits`, `Pattern.Occurs` — the seconds and the points in time at which a pattern occurs
* `Pattern.Ranged` — the years of a pattern are years that a pattern can speak of
* `Datable` — the points in time after which an occurrence is searched for

## Main results

* `Pattern.ranged_of_parse` — a pattern that was read is ranged
* `Pattern.next?_eq_some_iff` — the next occurrence is the least one that is later
-/

namespace Metronome.Cron

/-! ### Values of fields -/

theorem Component.contains_iff {c : Component} {n : Nat} :
    c.contains n = true ↔ c.first ≤ n ∧ n ≤ c.final := by
  rw [contains, Bool.and_eq_true, decide_eq_true_eq, decide_eq_true_eq]

theorem named?_contains {c : Component} {name : List Char} {n : Nat} (h : c.named? name = some n) :
    c.contains n = true := by
  obtain ⟨e, he, rfl⟩ := Option.map_eq_some_iff.mp h
  have hall : ∀ e ∈ c.names, c.contains e.2 = true := by cases c <;> decide
  exact hall e (List.mem_of_find?_eq_some he)

theorem rangeValues_contains {c : Component} {lo hi : Nat} {ns : List Nat}
    (h : rangeValues c lo hi = some ns) : ∀ n ∈ ns, c.contains n = true := by
  unfold rangeValues at h
  split at h
  · next hrange =>
    cases h
    simp only [Bool.and_eq_true, Component.contains_iff, decide_eq_true_eq] at hrange
    intro n hn
    rw [Component.contains_iff]
    obtain ⟨hlo, hhi⟩ := List.mem_range'_1.mp hn
    omega
  · cases h

theorem Component.contains_of_mem_all {c : Component} {n : Nat} (h : n ∈ c.all) :
    c.contains n = true := by
  obtain ⟨hlo, hhi⟩ := List.mem_range'_1.mp h
  have hle : c.first ≤ c.final := by cases c <;> decide
  rw [contains_iff]
  omega

theorem everyNth_subset (step skip : Nat) (ns : List Nat) : everyNth step skip ns ⊆ ns := by
  fun_induction everyNth step skip ns with
  | case1 => exact List.Subset.refl _
  | case2 n ns ih => exact List.cons_subset_cons n ih
  | case3 skip n ns ih => exact List.subset_cons_of_subset n ih

theorem Selector.values_contains {c : Component} {s : Selector} {ns : List Nat}
    (h : s.values c = some ns) : ∀ n ∈ ns, c.contains n = true := by
  cases s with
  | all =>
    cases h
    exact fun n hn => Component.contains_of_mem_all hn
  | single m =>
    rw [values] at h
    split at h
    · next hm =>
      cases h
      exact fun n hn => List.mem_singleton.mp hn ▸ hm
    · cases h
  | range lo hi => exact rangeValues_contains h
  | namedRange lo hi =>
    obtain ⟨m, -, h⟩ := Option.bind_eq_some_iff.mp h
    obtain ⟨n, -, h⟩ := Option.bind_eq_some_iff.mp h
    exact rangeValues_contains h

theorem Item.values_contains {c : Component} {i : Item} {ns : List Nat}
    (h : i.values c = some ns) : ∀ n ∈ ns, c.contains n = true := by
  cases i with
  | select s => exact Selector.values_contains h
  | named name =>
    obtain ⟨n, hn, rfl⟩ := Option.map_eq_some_iff.mp h
    exact fun m hm => List.mem_singleton.mp hm ▸ named?_contains hn
  | stepped s step =>
    unfold values at h
    dsimp only at h
    split at h
    · cases h
    · obtain ⟨ms, hms, rfl⟩ := Option.map_eq_some_iff.mp h
      have hbase : ∀ n ∈ ms, c.contains n = true := by
        cases s with
        | single m => exact rangeValues_contains hms
        | _ => exact Selector.values_contains hms
      exact fun n hn => hbase n (everyNth_subset step 0 ms hn)

theorem fieldValues_contains {c : Component} {is : List Item} {ns : List Nat}
    (h : fieldValues c is = some ns) : ∀ n ∈ ns, c.contains n = true := by
  obtain ⟨vss, hvss, rfl⟩ := Option.map_eq_some_iff.mp h
  clear h
  induction is generalizing vss with
  | nil =>
    cases hvss
    exact nofun
  | cons i is ih =>
    rw [List.mapM_cons] at hvss
    obtain ⟨vs, hvs, hvss⟩ := Option.bind_eq_some_iff.mp hvss
    obtain ⟨rest, hrest, hvss⟩ := Option.bind_eq_some_iff.mp hvss
    cases hvss
    intro n hn
    rcases List.mem_append.mp hn with hn | hn
    · exact i.values_contains hvs n hn
    · exact ih rest hrest n hn

/-- A field stands for values of its component. -/
theorem field_contains {c : Component} {cs rest : List Char} {ns : List Nat}
    (h : field c cs = some (ns, rest)) : ∀ n ∈ ns, c.contains n = true := by
  obtain ⟨r, -, h⟩ := Option.bind_eq_some_iff.mp h
  obtain ⟨vs, hvs, h⟩ := Option.bind_eq_some_iff.mp h
  cases h
  exact fieldValues_contains hvs

/-- A point in time after which an occurrence can be searched for: the second that follows it does
not lie before the year zero. -/
def Datable (t : Instant) : Prop := 0 ≤ (Date.ofDayNumber ((t.secs + 1) / 86400)).year

theorem Datable.mono {t u : Instant} (ht : Datable t) (hle : t ≤ u) : Datable u := by
  unfold Datable at ht ⊢
  rw [Instant.le_def] at hle
  rw [← Int.not_lt, Date.year_lt_iff] at ht ⊢
  unfold Instant.secs at *
  omega

namespace Pattern

variable {p : Pattern}

/-- The years of a pattern are years that a pattern can speak of. -/
def Ranged (p : Pattern) : Prop := ∀ year ∈ p.years, Component.year.contains year = true

theorem ranged_shorthands : ∀ e ∈ shorthands, e.2.Ranged := by
  have hyears : ∀ e ∈ shorthands, e.2.years = Component.year.all := by decide +kernel
  intro e he year hyear
  rw [hyears e he] at hyear
  exact Component.contains_of_mem_all hyear

theorem ranged_of_fields? {cs : List Char} (h : fields? cs = some p) : p.Ranged := by
  unfold fields? at h
  simp only [Option.bind_eq_bind, Option.bind_eq_some_iff] at h
  obtain ⟨_, -, _, -, _, -, _, -, _, -, ⟨_, rest⟩, -, h⟩ := h
  dsimp only at h
  split at h
  · cases h
    intro year hyear
    -- a year that makes no sense counts as absent, and then every year is admitted
    cases hfield : field .year rest with
    | none =>
      rw [hfield] at hyear
      exact Component.contains_of_mem_all hyear
    | some r =>
      rw [hfield] at hyear
      exact field_contains hfield year hyear
  · cases h

/-- A pattern that was read speaks of years that a pattern can speak of. -/
theorem ranged_of_parse {s : String} (h : parse s = some p) : p.Ranged := by
  rcases (Option.orElse_eq_some ..).mp h with h | ⟨-, h⟩
  · obtain ⟨e, he, rfl⟩ := Option.map_eq_some_iff.mp h
    exact ranged_shorthands e (List.mem_of_find?_eq_some he)
  · exact ranged_of_fields? h

/-! ### Occurrences -/

/-- A second, counted from the start of 1970 and negative before it, has an admitted date and an
admitted time of day. -/
@[mk_iff]
structure Admits (p : Pattern) (n : Int) : Prop where
  second : (n % 60).toNat ∈ p.seconds
  minute : (n / 60 % 60).toNat ∈ p.minutes
  hour : (n / 3600 % 24).toNat ∈ p.hours
  day : (Date.ofDayNumber (n / 86400)).day ∈ p.daysOfMonth
  month : (Date.ofDayNumber (n / 86400)).month ∈ p.months
  weekday : weekday (n / 86400) + 1 ∈ p.daysOfWeek
  year : ∃ year ∈ p.years, (Date.ofDayNumber (n / 86400)).year = year

/-- A pattern occurs at a point in time if this is the start of an admitted second. -/
def Occurs (p : Pattern) (t : Instant) : Prop := ∃ n, p.Admits n ∧ t = .ofSecs n

/-- The years of a ranged pattern lie between the bounds of the search. -/
theorem Admits.bounds {n : Int} (h : p.Admits n) (hp : p.Ranged) :
    0 ≤ n ∧ n < (endDay * 86400 : Nat) := by
  obtain ⟨year, hyear, hdate⟩ := h.year
  obtain ⟨hfirst, hlast⟩ : 1970 ≤ year ∧ year ≤ 2100 := Component.contains_iff.mp (hp year hyear)
  have hstart : ¬ n / 86400 < 0 := fun hlt => by
    have := (Date.year_lt_iff (n / 86400) 1970).mpr hlt
    omega
  have hstop : n / 86400 < 47847 := (Date.year_lt_iff (n / 86400) 2101).mp (by omega)
  unfold endDay
  omega

/-- The search looks at the same components. -/
theorem matchesSecond_iff (n : Nat) : p.matchesSecond n = true ↔ p.Admits n := by
  have hnonneg : 0 ≤ (Date.ofDayNumber (n / 86400 : Nat)).year := by
    by_contra hlt
    have hday : ((n / 86400 : Nat) : Int) < Date.dayNumber ⟨0, 1, 1⟩ :=
      (Date.year_lt_iff ..).mp (Int.not_le.mp hlt)
    rw [show Date.dayNumber ⟨0, 1, 1⟩ = -719528 by decide] at hday
    omega
  have hyear : (Date.ofDayNumber (n / 86400 : Nat)).year.toNat ∈ p.years ↔
      ∃ year ∈ p.years, (Date.ofDayNumber (n / 86400 : Nat)).year = year := by
    constructor
    · exact fun h => ⟨_, h, (Int.toNat_of_nonneg hnonneg).symm⟩
    · rintro ⟨year, h, heq⟩
      rwa [heq]
  have hsecond : ((n : Int) % 60).toNat = n % 86400 % 60 := by omega
  have hminute : ((n : Int) / 60 % 60).toNat = n % 86400 / 60 % 60 := by omega
  have hhour : ((n : Int) / 3600 % 24).toNat = n % 86400 / 3600 := by omega
  simp only [matchesSecond, matchesDay, matchesTime, Bool.and_eq_true, List.contains_iff_mem,
    hyear, admits_iff, hsecond, hminute, hhour]
  tauto

/-! ### The next occurrence -/

theorem lt_ofSecs_iff {t : Instant} {n : Int} : t < .ofSecs n ↔ t.secs < n := by
  rw [Instant.lt_def]
  dsimp only [Instant.ofSecs, Instant.secs]
  omega

theorem ofSecs_le_ofSecs_iff {m n : Nat} : Instant.ofSecs m ≤ .ofSecs n ↔ m ≤ n := by
  rw [Instant.le_def]
  dsimp only [Instant.ofSecs]
  omega

/-- The later occurrences are the seconds among which the search finds the first one. -/
theorem Ranged.occurs_later_iff (hp : p.Ranged) {t u : Instant} : p.Occurs u ∧ t < u ↔
    ∃ n : Nat, ((t.secs + 1).toNat ≤ n ∧ n < endDay * 86400 ∧ p.matchesSecond n = true) ∧
      .ofSecs n = u := by
  constructor
  · rintro ⟨⟨m, hm, rfl⟩, hlt⟩
    obtain ⟨hnonneg, hstop⟩ := hm.bounds hp
    obtain ⟨n, rfl⟩ := Int.eq_ofNat_of_zero_le hnonneg
    rw [lt_ofSecs_iff] at hlt
    exact ⟨n, ⟨by omega, by omega, (matchesSecond_iff n).mpr hm⟩, rfl⟩
  · rintro ⟨n, ⟨hlo, -, hn⟩, rfl⟩
    refine ⟨⟨n, (matchesSecond_iff n).mp hn, rfl⟩, ?_⟩
    rw [lt_ofSecs_iff]
    omega

theorem next?_of_datable {t : Instant} (ht : Datable t) :
    p.next? t = (p.firstFrom (t.secs + 1).toNat).map fun n : Nat => .ofSecs n := by
  unfold next?
  dsimp only
  rw [if_neg (Int.not_lt.mpr ht)]
  cases p.firstFrom (t.secs + 1).toNat <;> rfl

/-- The occurrence that is found is the least one of those that are later. -/
theorem next?_eq_some_iff (hp : p.Ranged) {t u : Instant} (ht : Datable t) :
    p.next? t = some u ↔ IsLeast {u | p.Occurs u ∧ t < u} u := by
  simp only [next?_of_datable ht, Option.map_eq_some_iff, hp.occurs_later_iff,
    p.finds_firstFrom _ _]
  constructor
  · rintro ⟨n, hleast, rfl⟩
    refine ⟨⟨n, hleast.1, rfl⟩, ?_⟩
    rintro _ ⟨m, hm, rfl⟩
    exact ofSecs_le_ofSecs_iff.mpr (hleast.2 hm)
  · rintro ⟨⟨n, hn, rfl⟩, hlow⟩
    exact ⟨n, ⟨hn, fun m hm => ofSecs_le_ofSecs_iff.mp (hlow ⟨m, hm, rfl⟩)⟩, rfl⟩

/-- An occurrence is found only after a point in time from which the search sets out. -/
theorem datable_of_next? {t u : Instant} (h : p.next? t = some u) : Datable t := by
  unfold next? at h
  dsimp only at h
  split at h
  · cases h
  · next hyear => exact Int.not_lt.mp hyear

/-- The occurrence that is found is later, for patterns that no text is read as, too. -/
theorem lt_of_next? {t u : Instant} (h : p.next? t = some u) : t < u := by
  rw [next?_of_datable (datable_of_next? h), Option.map_eq_some_iff] at h
  obtain ⟨n, hn, rfl⟩ := h
  have hlo : (t.secs + 1).toNat ≤ n := ((p.finds_firstFrom _ n).mp hn).1.1
  rw [lt_ofSecs_iff]
  omega

end Pattern

end Metronome.Cron
