import Mathlib.Order.Lattice.Nat
import Metronome.Cron.Next

/-!
# The search for a matching second

The search for the first matching second goes through days, hours, minutes and seconds. Each of
these stretches is a block of the next larger one, and only the first block is entered in the
middle. So what is to be shown of all levels is one fact: a search that goes through blocks of equal
width in order, and searches each block from where it is entered, finds the least number there is.

## Main definitions

* `Finds` — a search finds the least number with a property in an interval

## Main results

* `finds_firstSome` — a search through blocks finds what there is to be found
* `Pattern.finds_firstTime` — the first admitted second of a day
* `Pattern.finds_firstFrom` — the first matching second up to the end of the year 2100
-/

namespace Metronome.Cron

variable {P Q : Nat → Prop} {found rest : Option Nat} {lo mid hi : Nat}

/-- What was found is the least number from `lo` to below `hi` that has a property, and nothing was
found if there is no such number. -/
def Finds (found : Option Nat) (P : Nat → Prop) (lo hi : Nat) : Prop :=
  ∀ n, found = some n ↔ IsLeast {n | lo ≤ n ∧ n < hi ∧ P n} n

theorem finds_none (h : ∀ n, lo ≤ n → n < hi → ¬ P n) : Finds none P lo hi :=
  fun n => ⟨nofun, fun hleast => absurd hleast.1.2.2 (h n hleast.1.1 hleast.1.2.1)⟩

/-- Something is found if there is a number with the property. -/
theorem Finds.exists_of_mem {n : Nat} (h : Finds found P lo hi) (hn : lo ≤ n ∧ n < hi ∧ P n) :
    ∃ m, found = some m := by
  have hne : {n | lo ≤ n ∧ n < hi ∧ P n}.Nonempty := ⟨n, hn⟩
  exact ⟨_, (h _).mpr ⟨Nat.sInf_mem hne, fun m hm => Nat.sInf_le hm⟩⟩

/-- A search in an interval of one number. -/
theorem finds_single (n : Nat) [Decidable (P n)] :
    Finds (if P n then some n else none) P n (n + 1) := by
  split
  · next hn =>
    intro m
    rw [Option.some.injEq]
    constructor
    · rintro rfl
      exact ⟨⟨Nat.le_refl _, Nat.lt_succ_self _, hn⟩, fun k hk => hk.1⟩
    · intro hleast
      exact Nat.le_antisymm hleast.1.1 (Nat.le_of_lt_succ hleast.1.2.1)
  · next hn =>
    refine finds_none fun m hlo hhi => ?_
    rwa [Nat.le_antisymm (Nat.le_of_lt_succ hhi) hlo]

/-- A search that goes on where another one has come to its end. -/
theorem Finds.or (h : Finds found P lo mid) (hrest : Finds rest P mid hi) (hlo : lo ≤ mid)
    (hhi : mid ≤ hi) : Finds (found.or rest) P lo hi := by
  cases found with
  | none =>
    have hnone : ∀ n, lo ≤ n → n < mid → ¬ P n := by
      intro n hn hmid hP
      obtain ⟨m, hm⟩ := h.exists_of_mem ⟨hn, hmid, hP⟩
      cases hm
    intro n
    rw [Option.none_or, hrest n]
    have hset : {n | lo ≤ n ∧ n < hi ∧ P n} = {n | mid ≤ n ∧ n < hi ∧ P n} := by
      ext m
      refine ⟨fun hm => ⟨Nat.le_of_not_lt fun hlt => hnone m hm.1 hlt hm.2.2, hm.2⟩,
        fun hm => ⟨hlo.trans hm.1, hm.2⟩⟩
    rw [hset]
  | some a =>
    have hleast := (h a).mp rfl
    intro n
    rw [Option.some_or, Option.some.injEq]
    have hall : IsLeast {n | lo ≤ n ∧ n < hi ∧ P n} a := by
      refine ⟨⟨hleast.1.1, Nat.lt_of_lt_of_le hleast.1.2.1 hhi, hleast.1.2.2⟩, fun m hm => ?_⟩
      by_cases hmid : m < mid
      · exact hleast.2 ⟨hm.1, hmid, hm.2.2⟩
      · exact Nat.le_of_lt (Nat.lt_of_lt_of_le hleast.1.2.1 (Nat.le_of_not_lt hmid))
    constructor
    · rintro rfl
      exact hall
    · intro hn
      exact Nat.le_antisymm (hall.2 hn.1) (hn.2 hall.1)

/-- What is found in a block is found at its distance from the start. -/
theorem Finds.map_add (base : Nat) (h : Finds found Q lo hi)
    (hiff : ∀ n, lo ≤ n → n < hi → (P (base + n) ↔ Q n)) :
    Finds (found.map (base + ·)) P (base + lo) (base + hi) := by
  intro n
  constructor
  · intro hn
    obtain ⟨m, hm, rfl⟩ := Option.map_eq_some_iff.mp hn
    obtain ⟨⟨hlo, hhi, hQ⟩, hlow⟩ := (h m).mp hm
    refine ⟨⟨Nat.add_le_add_left hlo base, Nat.add_lt_add_left hhi base,
      (hiff m hlo hhi).mpr hQ⟩, ?_⟩
    rintro k ⟨hklo, hkhi, hk⟩
    obtain ⟨k, rfl⟩ := Nat.exists_eq_add_of_le (Nat.le_of_add_right_le hklo)
    have hklo' := Nat.le_of_add_le_add_left hklo
    have hkhi' := Nat.lt_of_add_lt_add_left hkhi
    exact Nat.add_le_add_left (hlow ⟨hklo', hkhi', (hiff k hklo' hkhi').mp hk⟩) base
  · rintro ⟨⟨hlo, hhi, hP⟩, hlow⟩
    obtain ⟨n, rfl⟩ := Nat.exists_eq_add_of_le (Nat.le_of_add_right_le hlo)
    have hlo' := Nat.le_of_add_le_add_left hlo
    have hhi' := Nat.lt_of_add_lt_add_left hhi
    refine Option.map_eq_some_iff.mpr ⟨n, (h n).mpr ⟨⟨hlo', hhi', (hiff n hlo' hhi').mp hP⟩, ?_⟩,
      rfl⟩
    rintro k ⟨hklo, hkhi, hk⟩
    exact Nat.le_of_add_le_add_left (hlow ⟨Nat.add_le_add_left hklo base,
      Nat.add_lt_add_left hkhi base, (hiff k hklo hkhi).mpr hk⟩)

/-! ### Blocks -/

theorem firstSomeCount_succ {α : Type} (f : Nat → Option α) (lo count : Nat) :
    firstSomeCount f lo (count + 1) = (f lo).or (firstSomeCount f (lo + 1) count) := by
  rw [firstSomeCount]
  cases f lo <;> rfl

/-- A search through blocks of equal width. The blocks are counted from `base`, and the first of
them is searched from `start` on. -/
theorem finds_firstSome {f : Nat → Option Nat} {start stop : Nat} (base width : Nat)
    (hstart : base + lo * width ≤ start)
    (hfirst : lo < hi → start ≤ base + (lo + 1) * width)
    (hstop : stop = base + hi * width)
    (hblock : ∀ b, lo ≤ b → b < hi →
      Finds (f b) P (max start (base + b * width)) (base + (b + 1) * width)) :
    Finds (firstSome lo hi f) P start stop := by
  subst hstop
  unfold firstSome
  generalize hcount : hi - lo = count
  induction count generalizing lo start with
  | zero =>
    have hle : hi * width ≤ lo * width := Nat.mul_le_mul_right width (by omega)
    exact finds_none fun n hlo hhi => by omega
  | succ count ih =>
    have hlt : lo < hi := by omega
    have hnext : base + (lo + 1) * width ≤ base + hi * width :=
      Nat.add_le_add_left (Nat.mul_le_mul_right width hlt) base
    have hhead := hblock lo (Nat.le_refl _) hlt
    rw [Nat.max_eq_left hstart] at hhead
    rw [firstSomeCount_succ]
    refine hhead.or (ih (Nat.le_refl _) (fun _ => ?_) (fun b hb hbhi => ?_) (by omega))
      (hfirst hlt) hnext
    · exact Nat.add_le_add_left (Nat.mul_le_mul_right width (Nat.le_succ _)) base
    · have hblock' := hblock b (Nat.le_of_succ_le hb) hbhi
      have hle : base + (lo + 1) * width ≤ base + b * width :=
        Nat.add_le_add_left (Nat.mul_le_mul_right width hb) base
      rw [Nat.max_eq_right hle]
      rwa [Nat.max_eq_right ((hfirst hlt).trans hle)] at hblock'

namespace Pattern

/-- The first admitted second of a day. -/
theorem finds_firstTime (p : Pattern) (lo : Nat) :
    Finds (p.firstTime lo) (fun n => p.matchesTime n = true) lo 86400 := by
  refine finds_firstSome 0 3600 (by omega) (fun _ => by omega) (by omega)
    fun hour hlo hhi => ?_
  split
  case isFalse hhour =>
    refine finds_none fun n hn hn' => ?_
    have heq : n / 3600 = hour := by omega
    rw [matchesTime, heq, Bool.eq_false_iff.mpr hhour, Bool.false_and, Bool.false_and]
    decide
  case isTrue hhour =>
    -- the search of the hour begins at `start`, and so does that of the first minute
    have hminutes : (if hour = lo / 3600 then lo / 60 % 60 else 0) =
        max lo (0 + hour * 3600) / 60 % 60 := by split <;> omega
    have hhours : max lo (0 + hour * 3600) / 3600 = hour := by omega
    have hseconds (minute : Nat) : (if hour = lo / 3600 ∧ minute = lo / 60 % 60 then lo % 60
        else 0) = if minute = max lo (0 + hour * 3600) / 60 % 60 then
          max lo (0 + hour * 3600) % 60 else 0 := by split <;> split <;> omega
    simp only [hminutes, hseconds]
    generalize max lo (0 + hour * 3600) = start at hhours
    refine finds_firstSome (hour * 3600) 60 (by omega) (fun _ => by omega)
      (by omega) fun minute hlo hhi => ?_
    split
    case isFalse hminute =>
      refine finds_none fun n hn hn' => ?_
      have heq : n / 60 % 60 = minute := by omega
      rw [matchesTime, heq, Bool.eq_false_iff.mpr hminute, Bool.and_false, Bool.false_and]
      decide
    case isTrue hminute =>
      have hsecond : (if minute = start / 60 % 60 then start % 60 else 0) =
          max start (hour * 3600 + minute * 60) % 60 := by split <;> omega
      rw [hsecond]
      refine finds_firstSome (hour * 3600 + minute * 60) 1 (by omega)
        (fun _ => by omega) (by omega) fun second hlo hhi => ?_
      rw [show max (max start (hour * 3600 + minute * 60))
        (hour * 3600 + minute * 60 + second * 1) = hour * 3600 + minute * 60 + second by omega,
        show hour * 3600 + minute * 60 + (second + 1) * 1 =
          hour * 3600 + minute * 60 + second + 1 by omega]
      have hmatches : p.matchesTime (hour * 3600 + minute * 60 + second) =
          p.seconds.contains second := by
        rw [matchesTime, show (hour * 3600 + minute * 60 + second) / 3600 = hour by omega,
          show (hour * 3600 + minute * 60 + second) / 60 % 60 = minute by omega,
          show (hour * 3600 + minute * 60 + second) % 60 = second by omega, hhour, hminute,
          Bool.true_and, Bool.true_and]
      have hsingle := finds_single (P := fun n => p.matchesTime n = true)
        (hour * 3600 + minute * 60 + second)
      rw [hmatches] at hsingle
      exact hsingle

/-- The first matching second, up to the end of the last year that the search goes through. -/
theorem finds_firstFrom (p : Pattern) (lo : Nat) :
    Finds (p.firstFrom lo) (fun n => p.matchesSecond n = true) lo (endDay * 86400) := by
  refine finds_firstSome 0 86400 (by omega) (fun _ => by omega)
    (Nat.zero_add _).symm fun day hlo hhi => ?_
  split
  case isFalse hday =>
    refine finds_none fun n hn hn' => ?_
    rw [matchesSecond, show n / 86400 = day by omega, Bool.eq_false_iff.mpr hday, Bool.false_and]
    decide
  case isTrue hday =>
    have htime := (p.finds_firstTime (if day = lo / 86400 then lo % 86400 else 0)).map_add
      (P := fun n => p.matchesSecond n = true) (day * 86400) fun n _ hn => by
        rw [matchesSecond, show (day * 86400 + n) / 86400 = day by omega,
          show (day * 86400 + n) % 86400 = n by omega, hday, Bool.true_and]
    rw [show max lo (0 + day * 86400) =
      day * 86400 + (if day = lo / 86400 then lo % 86400 else 0) by split <;> omega,
      show 0 + (day + 1) * 86400 = day * 86400 + 86400 by omega]
    exact htime

end Pattern

end Metronome.Cron
