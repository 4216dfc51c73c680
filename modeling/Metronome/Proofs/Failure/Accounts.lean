import Mathlib.Algebra.BigOperators.Group.Multiset.Basic
import Mathlib.Data.Finset.Card
import Metronome.Proofs.Failure.Histories

/-!
# What a record accounts for

A record sums up what was recorded under its identity since the identity came in. This holds at
whatever times the errors occur, and whichever of the records that have been quiet the longest make
room.

What an identity has lost with its record is not counted when it comes back. Nothing is lost while
there is room, so that the records of a few identities count all that was recorded.

## Main definitions

* `ErrorDirectory.Stays` — an identity has come in and has not gone since
* `ErrorRecord.Sums` — a record of given occurrences
* `ErrorDirectory.Accounts` — a record of what was recorded during the stay of its identity
* `ErrorDirectory.Recording.Spares` — what a recording drops, and what it keeps

## Main results

* `ErrorDirectory.History.accounts` — each record accounts for the stay of its identity
* `ErrorDirectory.History.spares` — only a new identity drops a record, and only if there is no room
* `ErrorDirectory.History.sum_count` — the counts add up if there are few identities
* `ErrorDirectory.History.records_exact` — all of it
-/

namespace Metronome

/-! ### Records and occurrences -/

/-- A record is that of a first recording and of others, which were made under the same identity. -/
structure ErrorRecord.Sums (r : ErrorRecord) (first : ErrorDirectory.Recording)
    (others : List ErrorDirectory.Recording) : Prop where
  count : r.count = (first :: others).length
  firstSeen : r.firstSeen = first.time
  site : r.site = first.error.site
  message : r.message = first.error.message
  backtrace : r.backtrace = first.error.backtrace
  lastSeen : r.lastSeen = (others.getLastD first).time
  answer : (others.getLastD first).answer = r.count

namespace ErrorDirectory

variable {d d' : ErrorDirectory} {id : UInt64} {r : ErrorRecord} {c first : Recording}
  {cs before rest others : List Recording}

theorem sums_first (h : c.answer = 1) : c.first.Sums c [] :=
  ⟨rfl, rfl, rfl, rfl, rfl, rfl, h⟩

theorem sums_again (hr : r.Sums first others) (h : c.answer = r.count + 1) :
    (r.again c.time).Sums first (others ++ [c]) := by
  refine ⟨?_, hr.firstSeen, hr.site, hr.message, hr.backtrace, ?_, ?_⟩
  · rw [← List.cons_append, List.length_append, ← hr.count]
    rfl
  · rw [List.getLastD_concat]
    rfl
  · rw [List.getLastD_concat, h]
    rfl

/-! ### The stay of an identity -/

/-- An identity has come in with a recording, which found no record of it. This recording and the
rest have left one. -/
structure Stays (id : UInt64) (first : Recording) (rest : List Recording) : Prop where
  same : first.id = id
  new : first.found.get? id = none
  kept : ∀ c ∈ first :: rest, ∃ r, c.left.get? id = some r

theorem Stays.concat (h : Stays id first rest) (hkept : ∃ r, c.left.get? id = some r) :
    Stays id first (rest ++ [c]) := by
  refine ⟨h.same, h.new, fun b hb => ?_⟩
  rw [← List.cons_append, List.mem_append, List.mem_singleton] at hb
  obtain hb | rfl := hb
  · exact h.kept b hb
  · exact hkept

/-- A record sums up what was recorded under its identity since the identity came in. -/
def Accounts (cs : List Recording) (r : ErrorRecord) : Prop :=
  ∃ before first rest, cs = before ++ first :: rest ∧ Stays r.id first rest ∧
    r.Sums first (rest.filter fun c => c.id = r.id)

/-- The identity of a record has been recorded. -/
theorem Accounts.exists_mem (h : Accounts cs r) : ∃ c ∈ cs, c.id = r.id := by
  obtain ⟨before, first, rest, rfl, hstays, -⟩ := h
  exact ⟨first, List.mem_append_right _ List.mem_cons_self, hstays.same⟩

/-- The record of what has been recorded. -/
theorem Effect.recorded (h : Effect d c d') (hd' : d'.Sound) (hr : r ∈ d'.contents)
    (hid : r.id = c.id) :
    (∃ known ∈ d.contents, known.id = c.id ∧ c.answer = known.count + 1 ∧
      r = known.again c.time) ∨
    (∀ s ∈ d.contents, s.id ≠ c.id) ∧ c.answer = 1 ∧ r = c.first := by
  have hfront (new : ErrorRecord) (rest : Multiset ErrorRecord) (hnew : new.id = c.id)
      (hleft : d'.contents = new ::ₘ rest) : r = new :=
    hd'.eq_of_id_eq hr (hleft ▸ Multiset.mem_cons_self new rest) (hid.trans hnew.symm)
  cases h with
  | known s mem same answer left =>
    exact Or.inl ⟨s, mem, same, answer, hfront (s.again c.time) _ same left⟩
  | room new room answer left => exact Or.inr ⟨new, answer, hfront _ _ rfl left⟩
  | full new full answer stale mem quietest left =>
    exact Or.inr ⟨new, answer, hfront _ _ rfl left⟩

/-- What one recording does to the accounts: the record of what occurs counts it, and those of other
identities are as they were. -/
theorem Step.accounts (h : Step d c d') (hd : d.Sound) (haccounts : ∀ r ∈ d.contents, Accounts cs r)
    (hr : r ∈ d'.contents) : Accounts (cs ++ [c]) r := by
  have heffect := h.effect hd
  have hd' := heffect.sound hd
  have hkept : ∃ s, c.left.get? r.id = some s := by
    rw [h.left]
    exact ⟨r, hd'.get?_eq_some_iff.mpr ⟨hr, rfl⟩⟩
  by_cases hid : r.id = c.id
  · obtain ⟨known, hmem, hknown, hanswer, rfl⟩ | ⟨hnew, hanswer, rfl⟩ :=
      heffect.recorded hd' hr hid
    · obtain ⟨before, first, rest, rfl, hstays, hsums⟩ := haccounts known hmem
      refine ⟨before, first, rest ++ [c], by rw [List.append_assoc, List.cons_append],
        hstays.concat hkept, ?_⟩
      rw [List.filter_append, List.filter_cons_of_pos (by simpa using hid.symm), List.filter_nil]
      exact sums_again hsums hanswer
    · refine ⟨cs, c, [], rfl, ⟨rfl, ?_, fun b hb => ?_⟩, sums_first hanswer⟩
      · rw [h.found]
        exact get?_eq_none_iff.mpr hnew
      · rw [List.mem_singleton.mp hb]
        exact hkept
  · obtain ⟨before, first, rest, rfl, hstays, hsums⟩ :=
      haccounts r (heffect.mem_of_ne hr hid)
    refine ⟨before, first, rest ++ [c], by rw [List.append_assoc, List.cons_append],
      hstays.concat hkept, ?_⟩
    rw [List.filter_append, List.filter_cons_of_neg (by simpa using Ne.symm hid), List.filter_nil,
      List.append_nil]
    exact hsums

/-- Each record accounts for the stay of its identity. -/
theorem History.accounts (h : History cs d) : ∀ r ∈ d.contents, Accounts cs r := by
  induction h with
  | refl => exact fun r hr => absurd hr (Multiset.notMem_zero r)
  | snoc hrun hstep ih => exact fun r hr => hstep.accounts (History.sound hrun) ih hr

/-! ### What is dropped -/

/-- What a recording drops, and what it keeps. -/
structure Recording.Spares (c : Recording) : Prop where
  /-- What occurs has a record then. -/
  held : ∃ r, c.left.get? c.id = some r
  /-- Nothing is dropped for a known identity, or while there is room. The records of other
  identities stay as they are. -/
  kept : (∃ r, c.found.get? c.id = some r) ∨ c.found.size < capacity →
    ∀ id r, c.found.get? id = some r → ∃ s, c.left.get? id = some s ∧ (id ≠ c.id → s = r)
  /-- A new identity drops one record if there is no room, of those that have been quiet the
  longest. -/
  dropped : c.found.get? c.id = none → capacity ≤ c.found.size →
    ∃ stale ∈ c.found.contents, stale.id ≠ c.id ∧
      (∀ r ∈ c.found.contents, stale.lastSeen ≤ r.lastSeen) ∧
      c.left.contents = c.first ::ₘ c.found.contents.erase stale

theorem Step.spares (h : Step d c d') (hd : d.Sound) : c.Spares := by
  have heffect := h.effect hd
  have hd' := heffect.sound hd
  obtain ⟨rfl, rfl, -⟩ := h
  have hheld : ∃ r, c.left.get? c.id = some r := by
    obtain ⟨new, rest, hnew, -, hleft⟩ := heffect.exists_cons
    exact ⟨new, hd'.get?_eq_some_iff.mpr ⟨hleft ▸ Multiset.mem_cons_self new rest, hnew⟩⟩
  cases heffect with
  | known s mem same answer left =>
    refine ⟨hheld, fun _ id r hget => ?_,
      fun hnone => absurd same (get?_eq_none_iff.mp hnone s mem)⟩
    obtain ⟨hr, rfl⟩ := hd.get?_eq_some_iff.mp hget
    by_cases hid : r.id = s.id
    · refine ⟨s.again c.time, hd'.get?_eq_some_iff.mpr ⟨?_, hid.symm⟩,
        fun hne => absurd (hid.trans same) hne⟩
      rw [left]
      exact Multiset.mem_cons_self _ _
    · refine ⟨r, hd'.get?_eq_some_iff.mpr ⟨?_, rfl⟩, fun _ => rfl⟩
      rw [left, hd.erase_eq_filter mem]
      exact Multiset.mem_cons_of_mem (Multiset.mem_filter.mpr ⟨hr, hid⟩)
  | room new room answer left =>
    refine ⟨hheld, fun _ id r hget => ⟨r, ?_, fun _ => rfl⟩, fun _ hfull => absurd room (by omega)⟩
    obtain ⟨hr, rfl⟩ := hd.get?_eq_some_iff.mp hget
    refine hd'.get?_eq_some_iff.mpr ⟨?_, rfl⟩
    rw [left]
    exact Multiset.mem_cons_of_mem hr
  | full new full answer stale mem quietest left =>
    refine ⟨hheld, ?_, fun _ _ => ⟨stale, mem, new stale mem, quietest, left⟩⟩
    rintro (⟨r, hget⟩ | hroom)
    · obtain ⟨hr, hid⟩ := hd.get?_eq_some_iff.mp hget
      exact absurd hid (new r hr)
    · exact absurd hroom (Nat.not_lt.mpr full)

/-- Only a new identity drops a record, and only if there is no room. -/
theorem History.spares (h : History cs d) (hc : c ∈ cs) : c.Spares := by
  obtain ⟨before, after, rfl⟩ := List.append_of_mem hc
  obtain ⟨found, left, hbefore, hstep, -⟩ := Course.exists_step before h
  exact hstep.spares (History.sound hbefore)

/-! ### The counts -/

/-- The identities under which something was recorded. -/
def identities (cs : List Recording) : Finset UInt64 := (cs.map fun c => c.id).toFinset

theorem mem_identities : id ∈ identities cs ↔ ∃ c ∈ cs, c.id = id := by
  rw [identities, List.mem_toFinset, List.mem_map]

theorem identities_concat_subset (cs : List Recording) (c : Recording) :
    identities cs ⊆ identities (cs ++ [c]) := by
  intro id hid
  obtain ⟨b, hb, heq⟩ := mem_identities.mp hid
  exact mem_identities.mpr ⟨b, List.mem_append_left _ hb, heq⟩

/-- An identity that is new to a history is one more than those that have a record. -/
theorem size_lt_card_identities (hd : d.Sound) (haccounts : ∀ r ∈ d.contents, Accounts cs r)
    (hnew : ∀ r ∈ d.contents, r.id ≠ c.id) : d.size < (identities (cs ++ [c])).card := by
  have hnot : c.id ∉ (d.contents.map ErrorRecord.id).toFinset := by
    rw [Multiset.mem_toFinset, Multiset.mem_map]
    rintro ⟨r, hr, hid⟩
    exact hnew r hr hid
  have hsub : insert c.id (d.contents.map ErrorRecord.id).toFinset ⊆ identities (cs ++ [c]) := by
    refine Finset.insert_subset (mem_identities.mpr ⟨c, List.mem_concat_self, rfl⟩) fun id hid => ?_
    obtain ⟨r, hr, rfl⟩ := Multiset.mem_map.mp (Multiset.mem_toFinset.mp hid)
    exact identities_concat_subset cs c (mem_identities.mpr (haccounts r hr).exists_mem)
  calc d.size
      = (d.contents.map ErrorRecord.id).toFinset.card := by
        rw [Multiset.toFinset_card_of_nodup hd.nodup, Multiset.card_map, card_contents]
    _ < (insert c.id (d.contents.map ErrorRecord.id).toFinset).card := by
        rw [Finset.card_insert_of_notMem hnot]
        exact Nat.lt_succ_self _
    _ ≤ (identities (cs ++ [c])).card := Finset.card_le_card hsub

/-- What is recorded adds one to the counts unless a record is dropped. -/
theorem Effect.sum_count (h : Effect d c d')
    (hroom : (∀ r ∈ d.contents, r.id ≠ c.id) → d.size < capacity) :
    (d'.contents.map ErrorRecord.count).sum = (d.contents.map ErrorRecord.count).sum + 1 := by
  cases h with
  | known r mem same answer left =>
    rw [left, Multiset.map_cons, Multiset.sum_cons, ← Multiset.sum_map_erase mem,
      show (r.again c.time).count = r.count + 1 from rfl]
    omega
  | room new room answer left =>
    rw [left, Multiset.map_cons, Multiset.sum_cons, Nat.add_comm]
    rfl
  | full new full answer stale mem quietest left =>
    exact absurd (hroom new) (Nat.not_lt.mpr full)

/-- The counts add up as long as there are no more identities than there may be records. -/
theorem History.sum_count (h : History cs d) (hfew : (identities cs).card ≤ capacity) :
    (d.contents.map ErrorRecord.count).sum = cs.length := by
  induction h with
  | refl => rfl
  | @snoc _ _ cs c hrun hstep ih =>
    have hd := History.sound hrun
    have hbefore := (Finset.card_le_card (identities_concat_subset cs c)).trans hfew
    rw [List.length_append, List.length_singleton, ← ih hbefore]
    refine (hstep.effect hd).sum_count fun hnew => ?_
    exact (size_lt_card_identities hd (History.accounts hrun) hnew).trans_le hfew

/-- Every record is found under its own identity, and sums up exactly what was recorded under this
identity since it last came in. Nothing is dropped for a known identity or while there is room; a
new identity drops one record otherwise, one of those that have been quiet the longest and never its
own. If there are no more identities than there may be records, the counts add up to all that was
recorded. -/
theorem History.records_exact (h : History cs d) :
    (∀ r ∈ d.contents, d.get? r.id = some r) ∧
    (∀ id r, d.get? id = some r → r.id = id ∧ Accounts cs r) ∧
    (∀ c ∈ cs, c.Spares) ∧
    ((identities cs).card ≤ capacity → (d.contents.map ErrorRecord.count).sum = cs.length) := by
  have hd := h.sound
  refine ⟨fun r hr => hd.get?_eq_some_iff.mpr ⟨hr, rfl⟩, fun id r hget => ?_, fun c => h.spares,
    h.sum_count⟩
  obtain ⟨hr, hid⟩ := hd.get?_eq_some_iff.mp hget
  exact ⟨hid, h.accounts r hr⟩

/-- As many identities as there may be records occur at one time, and the first of them once more at
an earlier one. It makes room for a new identity, and then comes back. -/
def comeback : List Occurrence :=
  (((List.range 128).map fun id => (id, 0)) ++ [(0, -1), (128, 0), (0, 0)]).map
    fun p : Nat × Int =>
      { id := .ofNat p.1, error := { message := "", site := ⟨"", 0, 0⟩ }, time := .ofSecs p.2 }

/-- The identity that has come back counts one occurrence, though it has occurred three times. -/
theorem records_exact_comeback : History (replay comeback).1 (replay comeback).2 ∧
    (comeback.filter fun o => o.id = 0).length = 3 ∧
    ∃ r, (replay comeback).2.get? 0 = some r ∧ r.count = 1 ∧ r.id = 0 ∧
      Accounts (replay comeback).1 r ∧ ∀ c ∈ (replay comeback).1, c.Spares := by
  have hrun := history_replay comeback
  obtain ⟨-, haccounts, hspares, -⟩ := hrun.records_exact
  have hcount : ((replay comeback).2.get? 0).map ErrorRecord.count = some 1 := by decide +kernel
  obtain ⟨r, hget, hr⟩ := Option.map_eq_some_iff.mp hcount
  obtain ⟨hid, hr'⟩ := haccounts 0 r hget
  exact ⟨hrun, by decide +kernel, r, hget, hr, hid, hr', hspares⟩

end ErrorDirectory

end Metronome
