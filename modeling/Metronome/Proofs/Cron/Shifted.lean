import Metronome.Proofs.Cron.Occurrence

/-!
# Patterns whose fields are moved

A text that is read as a pattern says something else when a seconds field `0` is put in front of it:
its first field is then about minutes, its second one about hours, and so on. If the text still
makes sense, some occurrence is lost. For all of them to be kept, the seconds of the pattern would
have to be zero only, therefore its minutes, which are now restricted to what were the seconds, and
therefore its hours. Then the field that was about hours names the number zero, but it is about days
now, and there is no day zero in a month.

## Main definitions

* `Item.NamesZero` — a written form whose first value is the number zero

## Main results

* `items_congr` — fields are read alike whether they are about seconds, minutes or hours
* `Pattern.Admits.at_time` — the components of the time of day are independent of each other
* `Pattern.exists_lost` — a pattern whose fields are moved loses an occurrence
-/

namespace Metronome.Cron

variable {c c' : Component} {cs rest : List Char} {is : List Item} {i : Item} {ns ms : List Nat}

/-! ### Reading is the same for most components -/

section Congruence

theorem selector_congr (h : c.allowsQuestionMark = c'.allowsQuestionMark) (cs : List Char) :
    selector c cs = selector c' cs := by
  unfold selector
  rw [h]

theorem item_congr (h : c.allowsQuestionMark = c'.allowsQuestionMark) (cs : List Char) :
    item c cs = item c' cs := by
  unfold item
  rw [selector_congr h]

theorem moreItems_congr (h : c.allowsQuestionMark = c'.allowsQuestionMark) (cs : List Char) :
    moreItems c cs = moreItems c' cs := by
  fun_induction moreItems c cs with
  | case1 rest i tail hitem _ is after hmore ih =>
    rw [item_congr h] at hitem
    rw [moreItems]
    split
    · next hitem' =>
      cases hitem.symm.trans hitem'
      rw [← ih, hmore]
    · next hnone => cases hitem.symm.trans hnone
  | case2 rest hnone =>
    rw [item_congr h] at hnone
    rw [moreItems]
    split
    · next hitem => cases hnone.symm.trans hitem
    · rfl
  | case3 cs hcomma => rw [moreItems.eq_2 c' cs hcomma]

/-- Components that both allow or both forbid the question mark are read alike. -/
theorem items_congr (h : c.allowsQuestionMark = c'.allowsQuestionMark) (cs : List Char) :
    items c cs = items c' cs := by
  unfold items
  simp only [item_congr h, moreItems_congr h]

/-- What is read as an item of seconds is read as the same item everywhere. -/
theorem item_of_second {r : Item × List Char} (h : item .second cs = some r) :
    item c cs = some r := by
  have hmark : ∀ rest, cs ≠ '?' :: rest := by
    rintro rest rfl
    have hnone : item .second ('?' :: rest) = none := rfl
    cases hnone.symm.trans h
  -- only a question mark in front makes a difference
  have hselector : selector c cs = selector .second cs := by
    unfold selector
    split
    · rfl
    · split
      · exact absurd rfl (hmark _)
      · rfl
  rw [← h]
  unfold item
  rw [hselector]

end Congruence

theorem exists_of_items {r : List Item × List Char} (h : items c cs = some r) :
    ∃ i is tail, item c (skipGap cs) = some (i, tail) ∧ r.1 = i :: is := by
  unfold items at h
  split at h
  · next i tail hitem =>
    cases h
    exact ⟨i, _, tail, hitem, rfl⟩
  · cases h

theorem field_eq_some_iff : field c cs = some (ns, rest) ↔
    ∃ is, items c cs = some (is, rest) ∧ fieldValues c is = some ns := by
  unfold field
  simp only [Option.bind_eq_bind, Option.bind_eq_some_iff, Prod.exists]
  constructor
  · rintro ⟨is, tail, hitems, vs, hvalues, h⟩
    cases h
    exact ⟨is, hitems, hvalues⟩
  · rintro ⟨is, hitems, hvalues⟩
    exact ⟨is, rest, hitems, ns, hvalues, rfl⟩

/-! ### Values of items -/

theorem rangeValues_eq_some_iff {lo hi : Nat} : rangeValues c lo hi = some ns ↔
    (c.contains lo = true ∧ c.contains hi = true ∧ lo ≤ hi) ∧
      ns = List.range' lo (hi - lo + 1) := by
  unfold rangeValues
  split
  · next h =>
    simp only [Bool.and_eq_true, decide_eq_true_eq, and_assoc] at h
    rw [Option.some.injEq, eq_comm, and_iff_right h]
  · next h =>
    simp only [Bool.and_eq_true, decide_eq_true_eq, and_assoc] at h
    exact iff_of_false nofun fun hrange => h hrange.1

theorem fieldValues_cons_eq_some_iff : fieldValues c (i :: is) = some ns ↔
    ∃ vs ms, i.values c = some vs ∧ fieldValues c is = some ms ∧ ns = vs ++ ms := by
  unfold fieldValues
  rw [List.mapM_cons]
  simp only [Option.bind_eq_bind, Option.pure_def, Option.map_eq_some_iff, Option.bind_eq_some_iff]
  constructor
  · rintro ⟨vss, ⟨vs, hvs, rest, hrest, h⟩, rfl⟩
    cases h
    exact ⟨vs, rest.flatten, hvs, ⟨rest, hrest, rfl⟩, rfl⟩
  · rintro ⟨vs, _, hvs, ⟨rest, hrest, rfl⟩, rfl⟩
    exact ⟨vs :: rest, ⟨vs, hvs, rest, hrest, rfl⟩, rfl⟩

/-- Each item of a field has values, which are among those of the field. -/
theorem exists_values (h : fieldValues c is = some ns) (hi : i ∈ is) :
    ∃ vs, i.values c = some vs ∧ vs ⊆ ns := by
  induction is generalizing ns with
  | nil => cases hi
  | cons j is ih =>
    obtain ⟨vs, ms, hvs, hms, rfl⟩ := fieldValues_cons_eq_some_iff.mp h
    rcases List.mem_cons.mp hi with rfl | hi
    · exact ⟨vs, hvs, List.subset_append_left vs ms⟩
    · obtain ⟨ws, hws, hsub⟩ := ih hms hi
      exact ⟨ws, hws, List.Subset.trans hsub (List.subset_append_right vs ms)⟩

/-- Each value of a field is one of an item. -/
theorem exists_item {n : Nat} (h : fieldValues c is = some ns) (hn : n ∈ ns) :
    ∃ i ∈ is, ∃ vs, i.values c = some vs ∧ n ∈ vs := by
  induction is generalizing ns with
  | nil =>
    cases h
    cases hn
  | cons j is ih =>
    obtain ⟨vs, ms, hvs, hms, rfl⟩ := fieldValues_cons_eq_some_iff.mp h
    rcases List.mem_append.mp hn with hn | hn
    · exact ⟨j, List.mem_cons_self, vs, hvs, hn⟩
    · obtain ⟨i, hi, hvalues⟩ := ih hms hn
      exact ⟨i, List.mem_cons_of_mem j hi, hvalues⟩

/-- What is first after those that are left out is kept. -/
theorem mem_everyNth {step skip n : Nat} (h : ns[skip]? = some n) : n ∈ everyNth step skip ns := by
  fun_induction everyNth step skip ns with
  | case1 => cases h
  | case2 m ns _ =>
    cases h
    exact List.mem_cons_self
  | case3 skip m ns ih => exact ih h

/-- A range that is thinned out keeps its first value. -/
theorem first_mem_everyNth (step lo count : Nat) :
    lo ∈ everyNth step 0 (List.range' lo (count + 1)) :=
  mem_everyNth (by simp)

/-- A range that is thinned out keeps a second value if it is longer than a step. -/
theorem second_mem_everyNth {step count : Nat} (lo : Nat) (hpos : 0 < step) (hle : step ≤ count) :
    lo + step ∈ everyNth step 0 (List.range' lo (count + 1)) := by
  rw [List.range'_succ, everyNth]
  refine List.mem_cons_of_mem lo (mem_everyNth ?_)
  rw [List.getElem?_range' (by omega)]
  congr 1
  omega

/-! ### The number zero -/

/-- The component is one of the time of day. -/
def Component.OfDay (c : Component) : Prop := c = .second ∨ c = .minute ∨ c = .hour

/-- The first value of a written form is the number zero, whatever it is about. -/
inductive Item.NamesZero : Item → Prop
  | single : NamesZero (.select (.single 0))
  | range (hi : Nat) : NamesZero (.select (.range 0 hi))
  | stepped (hi step : Nat) : NamesZero (.stepped (.range 0 hi) step)

namespace Component.OfDay

theorem bounds (h : c.OfDay) : c.first = 0 ∧ 0 < c.final := by
  rcases h with rfl | rfl | rfl <;> decide

theorem all_eq (h : c.OfDay) : c.all = List.range' 0 (c.final + 1) := by
  unfold Component.all
  rw [h.bounds.1, Nat.sub_zero]

theorem named?_eq_none (h : c.OfDay) (name : List Char) : c.named? name = none := by
  rcases h with rfl | rfl | rfl <;> rfl

theorem values_namedRange (h : c.OfDay) (lo hi : List Char) :
    (Selector.namedRange lo hi).values c = none := by
  rw [Selector.values, h.named?_eq_none]
  rfl

end Component.OfDay

/-- A selector of the time of day with no other value than zero names it. -/
theorem Selector.namesZero_of_values {s : Selector} (hc : c.OfDay) (h : s.values c = some ns)
    (hzero : ∀ n ∈ ns, n = 0) : (Item.select s).NamesZero := by
  cases s with
  | all =>
    cases h
    have hone : 1 ∈ c.all := by
      rw [hc.all_eq, List.mem_range'_1, Nat.zero_add]
      exact ⟨Nat.zero_le 1, Nat.succ_lt_succ hc.bounds.2⟩
    exact absurd (hzero 1 hone) (by decide)
  | single n =>
    rw [values] at h
    split at h
    · cases h
      cases hzero n (List.mem_singleton_self n)
      exact .single
    · cases h
  | range lo hi =>
    obtain ⟨-, rfl⟩ := rangeValues_eq_some_iff.mp h
    cases hzero lo (List.mem_range'_1.mpr (by omega))
    exact .range hi
  | namedRange lo hi => cases (hc.values_namedRange lo hi).symm.trans h

namespace Item

/-- An item of the time of day with no other value than zero names it. -/
theorem namesZero_of_values (hc : c.OfDay) (h : i.values c = some ns)
    (hzero : ∀ n ∈ ns, n = 0) : i.NamesZero := by
  cases i with
  | select s => exact Selector.namesZero_of_values hc h hzero
  | named name =>
    rw [values, hc.named?_eq_none] at h
    cases h
  | stepped s step =>
    unfold values at h
    dsimp only at h
    split at h
    · cases h
    next hstep =>
    simp only [Bool.or_eq_true, decide_eq_true_eq, not_or, Nat.not_lt] at hstep
    obtain ⟨hpos, hle⟩ := hstep
    -- a step does not lead out of the values from zero on, so that there is a second one
    have hlong : ¬ ∀ n ∈ everyNth step 0 (List.range' 0 (c.final + 1)), n = 0 := fun hall => by
      have hsecond := second_mem_everyNth 0 (Nat.pos_of_ne_zero hpos) hle
      rw [Nat.zero_add] at hsecond
      exact hpos (hall step hsecond)
    obtain ⟨base, hbase, rfl⟩ := Option.map_eq_some_iff.mp h
    cases s with
    | all =>
      cases hbase
      exact absurd (hc.all_eq ▸ hzero) hlong
    | single n =>
      obtain ⟨-, rfl⟩ := rangeValues_eq_some_iff.mp hbase
      cases hzero n (first_mem_everyNth ..)
      exact absurd hzero hlong
    | range lo hi =>
      obtain ⟨-, rfl⟩ := rangeValues_eq_some_iff.mp hbase
      cases hzero lo (first_mem_everyNth ..)
      exact .stepped hi step
    | namedRange lo hi => cases (hc.values_namedRange lo hi).symm.trans hbase

/-- What names the number zero has the same values everywhere, if it has any. -/
theorem NamesZero.values_unique (hi : i.NamesZero) (h : i.values c = some ns)
    (h' : i.values c' = some ms) : ms = ns := by
  cases hi with
  | single =>
    simp only [values, Selector.values, Option.ite_none_right_eq_some, Option.some.injEq] at h h'
    rw [← h.2, ← h'.2]
  | range hi => rw [(rangeValues_eq_some_iff.mp h).2, (rangeValues_eq_some_iff.mp h').2]
  | stepped hi step =>
    simp only [values, Option.ite_none_left_eq_some, Option.map_eq_some_iff] at h h'
    obtain ⟨-, base, hbase, rfl⟩ := h
    obtain ⟨-, base', hbase', rfl⟩ := h'
    rw [(rangeValues_eq_some_iff.mp hbase).2, (rangeValues_eq_some_iff.mp hbase').2]

/-- What names the number zero makes no sense where values start with one. -/
theorem NamesZero.values_eq_none (hi : i.NamesZero) (hc : 0 < c.first) : i.values c = none := by
  have hzero : ¬ c.contains 0 = true := fun h =>
    absurd (Component.contains_iff.mp h).1 (Nat.not_le.mpr hc)
  have hrange (hi : Nat) : rangeValues c 0 hi = none :=
    Option.eq_none_iff_forall_ne_some.mpr fun ns h => hzero (rangeValues_eq_some_iff.mp h).1.1
  cases hi with
  | single => exact if_neg hzero
  | range hi => exact hrange hi
  | stepped hi step => simp only [values, Selector.values, hrange, Option.map_none, ite_self]

end Item

/-- Items of the time of day with no other value than zero have no other one elsewhere. -/
theorem fieldValues_zero (hc : c.OfDay) (h : fieldValues c is = some ns) (hzero : ∀ n ∈ ns, n = 0)
    (h' : fieldValues c' is = some ms) : ∀ m ∈ ms, m = 0 := by
  intro m hm
  obtain ⟨i, hi, ws, hws, hmem⟩ := exists_item h' hm
  obtain ⟨vs, hvs, hsub⟩ := exists_values h hi
  have hzero : ∀ n ∈ vs, n = 0 := fun n hn => hzero n (hsub hn)
  rw [(Item.namesZero_of_values hc hvs hzero).values_unique hvs hws] at hmem
  exact hzero m hmem

/-- Minutes are read as seconds are. -/
theorem field_minute (cs : List Char) : field .minute cs = field .second cs := by
  have hitems : items .minute cs = items .second cs := items_congr (by rfl) cs
  unfold field
  rw [hitems]
  rfl

/-- Hours with no other value than zero make no sense as days. -/
theorem field_dayOfMonth_eq_none (h : field .hour cs = some (ns, rest)) (hzero : ∀ n ∈ ns, n = 0) :
    field .dayOfMonth cs = none := by
  obtain ⟨is, hitems, hvalues⟩ := field_eq_some_iff.mp h
  obtain ⟨i, more, tail, hitem, rfl⟩ := exists_of_items hitems
  obtain ⟨vs, hvs, hsub⟩ := exists_values hvalues List.mem_cons_self
  have hi : i.NamesZero :=
    Item.namesZero_of_values (Or.inr (Or.inr rfl)) hvs fun n hn => hzero n (hsub hn)
  have hday : i.values .dayOfMonth = none := hi.values_eq_none (by decide)
  have hitem : item .second (skipGap cs) = some (i, tail) :=
    (item_congr rfl (skipGap cs)).trans hitem
  refine Option.eq_none_iff_forall_ne_some.mpr fun r hr => ?_
  obtain ⟨js, hjs, hread⟩ := field_eq_some_iff.mp hr
  obtain ⟨j, others, tail', hj, rfl⟩ := exists_of_items hjs
  cases (item_of_second hitem).symm.trans hj
  obtain ⟨ws, hws, -⟩ := exists_values hread List.mem_cons_self
  cases hday.symm.trans hws

/-! ### A field in front -/

/-- What begins with a sign that stands between the parts of a field is not read as one. -/
theorem head_ne_of_item {r : Item × List Char} (h : item .second cs = some r) (rest : List Char) :
    cs ≠ '-' :: rest ∧ cs ≠ '/' :: rest ∧ cs ≠ ',' :: rest := by
  have hhyphen : item .second ('-' :: rest) = none := rfl
  have hslash : item .second ('/' :: rest) = none := rfl
  have hcomma : item .second (',' :: rest) = none := rfl
  refine ⟨?_, ?_, ?_⟩ <;> rintro rfl
  · cases hhyphen.symm.trans h
  · cases hslash.symm.trans h
  · cases hcomma.symm.trans h

/-- The number zero with a blank behind it is a field of its own in front of others. -/
theorem field_zero (hgap : skipGap cs = cs) (h : field .second cs = some (ns, rest)) :
    field .second ('0' :: ' ' :: cs) = some ([0], cs) := by
  obtain ⟨is, hitems, -⟩ := field_eq_some_iff.mp h
  obtain ⟨i, more, tail, hitem, -⟩ := exists_of_items hitems
  rw [hgap] at hitem
  have hhead := head_ne_of_item hitem
  have hordinal : ordinal ('0' :: ' ' :: cs) = some (0, cs) :=
    congrArg (fun r => some (0, r)) hgap
  have hhyphenated : hyphenated ordinal ('0' :: ' ' :: cs) = none := by
    unfold hyphenated
    rw [hordinal]
    split
    · next hhyphen =>
      cases hhyphen
      exact absurd rfl (hhead _).1
    · rfl
  have hselector : selector .second ('0' :: ' ' :: cs) = some (.single 0, cs) := by
    simp [selector, Component.allowsQuestionMark, hhyphenated, hordinal]
  have hzero : item .second ('0' :: ' ' :: cs) = some (.select (.single 0), cs) := by
    unfold item
    rw [hselector]
    split
    · next hslash =>
      cases hslash
      exact absurd rfl (hhead _).2.1
    · next hselect =>
      cases hselect
      rfl
    · next hnone => cases hnone
  have hmore : moreItems .second cs = ([], cs) :=
    moreItems.eq_2 .second cs fun rest => (hhead rest).2.2
  refine field_eq_some_iff.mpr ⟨[.select (.single 0)], ?_, rfl⟩
  unfold items
  rw [show skipGap ('0' :: ' ' :: cs) = '0' :: ' ' :: cs from rfl, hzero]
  dsimp only
  rw [hmore, hgap]

namespace Pattern

variable {p q : Pattern} {n : Int} {second minute hour : Nat}

/-- The first fields of a pattern are read one after the other. -/
theorem exists_of_fields? (h : fields? cs = some p) : ∃ r₁ r₂ r₃ r₄,
    field .second cs = some (p.seconds, r₁) ∧ field .minute r₁ = some (p.minutes, r₂) ∧
      field .hour r₂ = some (p.hours, r₃) ∧ field .dayOfMonth r₃ = some (p.daysOfMonth, r₄) := by
  unfold fields? at h
  simp only [Option.bind_eq_bind, Option.bind_eq_some_iff, Prod.exists] at h
  obtain ⟨_, r₁, hsecond, _, r₂, hminute, _, r₃, hhour, _, r₄, hday, _, _, -, _, _, -, h⟩ := h
  split at h
  · cases h
    exact ⟨r₁, r₂, r₃, r₄, hsecond, hminute, hhour, hday⟩
  · cases h

/-- On a day on which a pattern occurs, it occurs at all admitted times. -/
theorem Admits.at_time (h : p.Admits n) (hsecond : second ∈ p.seconds) (hminute : minute ∈ p.minutes)
    (hhour : hour ∈ p.hours) (hlt : second < 60 ∧ minute < 60 ∧ hour < 24) :
    p.Admits (n / 86400 * 86400 + hour * 3600 + minute * 60 + second) := by
  obtain ⟨-, -, -, hday, hmonth, hweekday, hyear⟩ := h
  generalize hat : n / 86400 * 86400 + hour * 3600 + minute * 60 + second = m
  have hdate : n / 86400 = m / 86400 := by omega
  have hsecond' : (m % 60).toNat = second := by omega
  have hminute' : (m / 60 % 60).toNat = minute := by omega
  have hhour' : (m / 3600 % 24).toNat = hour := by omega
  rw [hdate] at hday hmonth hweekday hyear
  exact ⟨hsecond'.symm ▸ hsecond, hminute'.symm ▸ hminute, hhour'.symm ▸ hhour, hday, hmonth,
    hweekday, hyear⟩

/-- A pattern that occurs whenever another one does, and so at least once, admits the times of day
of the other one. -/
theorem times_subset (hp : fields? cs = some p) (hn : p.Admits n)
    (hsub : ∀ m, p.Admits m → q.Admits m) :
    p.seconds ⊆ q.seconds ∧ p.minutes ⊆ q.minutes ∧ p.hours ⊆ q.hours := by
  obtain ⟨r₁, r₂, r₃, r₄, hsecond, hminute, hhour, -⟩ := exists_of_fields? hp
  have hseconds : ∀ k ∈ p.seconds, k < 60 := fun k hk =>
    Nat.lt_succ_of_le (Component.contains_iff.mp (field_contains hsecond k hk)).2
  have hminutes : ∀ k ∈ p.minutes, k < 60 := fun k hk =>
    Nat.lt_succ_of_le (Component.contains_iff.mp (field_contains hminute k hk)).2
  have hhours : ∀ k ∈ p.hours, k < 24 := fun k hk =>
    Nat.lt_succ_of_le (Component.contains_iff.mp (field_contains hhour k hk)).2
  have htimes : ∀ s ∈ p.seconds, ∀ m ∈ p.minutes, ∀ h ∈ p.hours,
      s ∈ q.seconds ∧ m ∈ q.minutes ∧ h ∈ q.hours := by
    intro s hs m hm h hh
    have hlt : s < 60 ∧ m < 60 ∧ h < 24 := ⟨hseconds s hs, hminutes m hm, hhours h hh⟩
    obtain ⟨hqs, hqm, hqh, -⟩ := hsub _ (hn.at_time hs hm hh hlt)
    refine ⟨?_, ?_, ?_⟩
    · convert hqs using 1
      omega
    · convert hqm using 1
      omega
    · convert hqh using 1
      omega
  refine ⟨fun s hs => ?_, fun m hm => ?_, fun h hh => ?_⟩
  · exact (htimes s hs _ hn.minute _ hn.hour).1
  · exact (htimes _ hn.second m hm _ hn.hour).2.1
  · exact (htimes _ hn.second _ hn.minute h hh).2.2

theorem occurs_ofSecs_iff : p.Occurs (.ofSecs n) ↔ p.Admits n := by
  constructor
  · rintro ⟨m, hm, hsame⟩
    have hnanos : n * 1000000000 = m * 1000000000 := congrArg Instant.nanos hsame
    rwa [show n = m by omega]
  · exact fun hn => ⟨n, hn, rfl⟩

/-- When a text still makes sense with the number zero in front of its fields, an occurrence is lost
unless there is none. -/
theorem exists_lost (hgap : skipGap cs = cs) (hp : fields? cs = some p)
    (hq : fields? ('0' :: ' ' :: cs) = some q) {t : Instant} (ht : p.Occurs t) :
    ∃ t, p.Occurs t ∧ ¬ q.Occurs t := by
  by_contra hall
  push Not at hall
  obtain ⟨n, hn, -⟩ := ht
  obtain ⟨hseconds, hminutes, hhours⟩ := times_subset hp hn fun m hm =>
    occurs_ofSecs_iff.mp (hall _ (occurs_ofSecs_iff.mpr hm))
  obtain ⟨r₁, r₂, r₃, -, hsecond, hminute, hhour, -⟩ := exists_of_fields? hp
  obtain ⟨t₁, t₂, t₃, t₄, hsecond', hminute', hhour', hday'⟩ := exists_of_fields? hq
  obtain ⟨hzero, rfl⟩ : [0] = q.seconds ∧ cs = t₁ := by
    simpa using (field_zero hgap hsecond).symm.trans hsecond'
  have hs : ∀ n ∈ p.seconds, n = 0 := fun n hn => by simpa [← hzero] using hseconds hn
  -- the minutes are what the seconds were
  obtain ⟨hqm, rfl⟩ : p.seconds = q.minutes ∧ r₁ = t₂ := by
    simpa using hsecond.symm.trans ((field_minute cs).symm.trans hminute')
  have hm : ∀ n ∈ p.minutes, n = 0 := fun n hn => hs n (hqm ▸ hminutes hn)
  -- the hours are the items of the minutes
  obtain ⟨is, hitems, hvalues⟩ := field_eq_some_iff.mp hminute
  obtain ⟨js, hjs, hvalues'⟩ := field_eq_some_iff.mp hhour'
  have hsame : items .minute r₁ = items .hour r₁ := items_congr (by rfl) r₁
  obtain ⟨rfl, rfl⟩ : is = js ∧ r₂ = t₃ := by simpa using hitems.symm.trans (hsame.trans hjs)
  have hh : ∀ n ∈ p.hours, n = 0 := fun n hn =>
    fieldValues_zero (Or.inr (Or.inl rfl)) hvalues hm hvalues' n (hhours hn)
  cases (field_dayOfMonth_eq_none hhour hh).symm.trans hday'

end Pattern

end Metronome.Cron
