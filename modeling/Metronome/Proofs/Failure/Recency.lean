import Mathlib.Data.List.Dedup
import Metronome.Proofs.Failure.Histories

/-!
# What a directory retains

While time goes forward, a directory retains the identities that have occurred last, as many as it
may have records. An identity that occurs comes to the front of them, whether it was known or is
new, and the last one of them falls out if there are too many.

This is seen on the records in the order in which they are listed, in which the identities stand in
the order of their last occurrences. Since no two records were seen last at the same time, it does
not matter in which order a recording finds them.

## Main definitions

* `ErrorDirectory.latest` — the identities of a history, the one that occurred last first
* `ErrorDirectory.Retains` — the records of the latest identities, in this order

## Main results

* `ErrorDirectory.latest_concat`, `ErrorDirectory.Effect.retained` — an occurrence comes to the
  front
* `ErrorDirectory.History.retains` — throughout a history, by induction
* `ErrorDirectory.History.retention` — what is listed after a history
-/

namespace Metronome.ErrorDirectory

variable {d d' : ErrorDirectory} {c : Recording} {cs : List Recording} {rs : List ErrorRecord}
  {stale : ErrorRecord}

/-! ### The latest identities -/

/-- The identities that have occurred, each once, the one that occurred last first. -/
def latest (cs : List Recording) : List UInt64 := (cs.map fun c => c.id).dedup.reverse

theorem nodup_latest (cs : List Recording) : (latest cs).Nodup :=
  List.nodup_reverse.mpr (List.nodup_dedup _)

theorem mem_latest {id : UInt64} : id ∈ latest cs ↔ ∃ c ∈ cs, c.id = id := by
  rw [latest, List.mem_reverse, List.mem_dedup, List.mem_map]

theorem dedup_concat (ids : List UInt64) (id : UInt64) :
    (ids ++ [id]).dedup = ids.dedup.filter (· ≠ id) ++ [id] := by
  induction ids with
  | nil => rfl
  | cons i ids ih =>
    by_cases hi : i ∈ ids
    · rw [List.cons_append, List.dedup_cons_of_mem (List.mem_append_left _ hi),
        List.dedup_cons_of_mem hi, ih]
    · rw [List.cons_append, List.dedup_cons_of_notMem hi]
      by_cases heq : i = id
      · rw [List.dedup_cons_of_mem (by simp [heq]), ih, List.filter_cons_of_neg (by simp [heq])]
      · rw [List.dedup_cons_of_notMem (by simp [hi, heq]), ih,
          List.filter_cons_of_pos (by simpa using heq), List.cons_append]

/-- What occurs comes to the front. -/
theorem latest_concat (cs : List Recording) (c : Recording) :
    latest (cs ++ [c]) = c.id :: (latest cs).filter (· ≠ c.id) := by
  rw [latest, List.map_append, List.map_singleton, dedup_concat, List.reverse_append,
    ← List.filter_reverse]
  rfl

/-- One element less fits if one may go. -/
theorem take_filter_ne {ids : List UInt64} (h : ids.Nodup) (id : UInt64) (n : Nat) :
    ((ids.take (n + 1)).filter (· ≠ id)).take n = (ids.filter (· ≠ id)).take n := by
  induction ids generalizing n with
  | nil => rfl
  | cons i ids ih =>
    obtain ⟨hi, h⟩ := List.nodup_cons.mp h
    rw [List.take_succ_cons]
    by_cases heq : i = id
    · subst heq
      -- the one that goes is the first, and no other is like it
      have hothers : ∀ j ∈ ids, decide (j ≠ i) = true := fun j hj =>
        decide_eq_true fun heq => hi (heq ▸ hj)
      rw [List.filter_cons_of_neg (by simp), List.filter_cons_of_neg (by simp),
        List.filter_eq_self.mpr hothers,
        List.filter_eq_self.mpr fun j hj => hothers j (List.mem_of_mem_take hj), List.take_take,
        Nat.min_self]
    · rw [List.filter_cons_of_pos (by simpa using heq),
        List.filter_cons_of_pos (by simpa using heq)]
      cases n with
      | zero => rfl
      | succ n => rw [List.take_succ_cons, List.take_succ_cons, ih h]

/-! ### The records in order -/

/-- A record that has been quiet the longest stands last among records in the order of their last
occurrences. -/
theorem erase_of_quietest (hsorted : rs.Pairwise fun r s => s.lastSeen < r.lastSeen)
    (hmem : stale ∈ rs) (hquiet : ∀ r ∈ rs, stale.lastSeen ≤ r.lastSeen) :
    (rs : Multiset ErrorRecord).erase stale = rs.dropLast := by
  obtain rfl | ⟨init, last, rfl⟩ := List.eq_nil_or_concat rs
  · cases hmem
  · rw [List.concat_eq_append] at hsorted hmem hquiet ⊢
    obtain ⟨-, -, hlast⟩ := List.pairwise_append.mp hsorted
    have heq : stale = last := by
      obtain hinit | hmem := List.mem_append.mp hmem
      · have hlt := hlast stale hinit last (List.mem_singleton_self last)
        exact absurd hlt (Int.not_lt.mpr (hquiet last List.mem_concat_self))
      · exact List.mem_singleton.mp hmem
    have hcons : ((init ++ [last] : List ErrorRecord) : Multiset ErrorRecord) = last ::ₘ init :=
      Multiset.coe_eq_coe.mpr (List.perm_append_singleton _ _)
    rw [hcons, heq, Multiset.erase_cons_head, List.dropLast_concat]

/-- The record of what occurs comes to the front. The others stay, save for the last one if there
are too many. -/
theorem Effect.retained (h : Effect d c d') (hd : d.Sound) (hrs : d.contents = rs)
    (hsorted : rs.Pairwise fun r s => s.lastSeen < r.lastSeen) :
    ∃ new : ErrorRecord, new.id = c.id ∧ new.lastSeen = c.time ∧
      d'.contents =
        (new :: (rs.filter fun r => r.id ≠ c.id).take (capacity - 1) : List ErrorRecord) := by
  have hlength : rs.length = d.size := by rw [← card_contents, hrs, Multiset.coe_card]
  have hfilter (hnew : ∀ r ∈ d.contents, r.id ≠ c.id) :
      (rs.filter fun r => r.id ≠ c.id) = rs := by
    refine List.filter_eq_self.mpr fun r hr => decide_eq_true (hnew r ?_)
    rw [hrs]
    exact hr
  have hsize := hd.size_le
  cases h with
  | known r mem same answer left =>
    have hothers : d.contents.erase r = (rs.filter fun r => r.id ≠ c.id : List ErrorRecord) := by
      rw [hd.erase_eq_filter mem, hrs, Multiset.filter_coe, same]
    have hfit : (rs.filter fun r => r.id ≠ c.id).length ≤ capacity - 1 := by
      have hcard := Multiset.card_erase_add_one mem
      rw [hothers, Multiset.coe_card, card_contents] at hcard
      omega
    refine ⟨r.again c.time, same, rfl, ?_⟩
    rw [left, hothers, List.take_of_length_le hfit]
    rfl
  | room new room answer left =>
    refine ⟨c.first, rfl, rfl, ?_⟩
    rw [left, hfilter new, List.take_of_length_le (by omega), hrs]
    rfl
  | full new full answer stale mem quietest left =>
    refine ⟨c.first, rfl, rfl, ?_⟩
    rw [hrs] at mem quietest
    have hlast : rs.dropLast = rs.take (capacity - 1) := by
      rw [List.dropLast_eq_take, hlength, Nat.le_antisymm hsize full]
    rw [left, hfilter new, hrs, erase_of_quietest hsorted mem quietest, hlast]
    rfl

/-! ### A history -/

/-- The time at which an identity has occurred last. -/
def lastTime? (cs : List Recording) (id : UInt64) : Option Instant :=
  (cs.reverse.find? fun c => c.id == id).map fun c => c.time

theorem lastTime?_concat_self (cs : List Recording) (c : Recording) :
    lastTime? (cs ++ [c]) c.id = some c.time := by
  simp [lastTime?]

theorem lastTime?_concat_of_ne {id : UInt64} (h : c.id ≠ id) :
    lastTime? (cs ++ [c]) id = lastTime? cs id := by
  rw [lastTime?, List.reverse_concat, List.find?_cons_of_neg (by simpa using h)]
  rfl

theorem exists_of_lastTime? {id : UInt64} {t : Instant} (h : lastTime? cs id = some t) :
    ∃ c ∈ cs, c.time = t := by
  obtain ⟨c, hc, rfl⟩ := Option.map_eq_some_iff.mp h
  exact ⟨c, List.mem_reverse.mp (List.mem_of_find?_eq_some hc), rfl⟩

/-- The records are those of the latest identities, in the order of their last occurrences. -/
structure Retains (cs : List Recording) (d : ErrorDirectory) (rs : List ErrorRecord) : Prop where
  contents : d.contents = rs
  sorted : rs.Pairwise fun r s => s.lastSeen < r.lastSeen
  ids : rs.map ErrorRecord.id = (latest cs).take capacity
  times : ∀ r ∈ rs, lastTime? cs r.id = some r.lastSeen

/-- What is recorded later than all that was recorded before. -/
theorem Retains.record (h : Retains cs d rs) (heffect : Effect d c d') (hd : d.Sound)
    (hlater : ∀ b ∈ cs, b.time < c.time) : ∃ rs', Retains (cs ++ [c]) d' rs' := by
  obtain ⟨new, hid, htime, hcontents⟩ := heffect.retained hd h.contents h.sorted
  have hmem {r : ErrorRecord} (hr : r ∈ (rs.filter fun r => r.id ≠ c.id).take (capacity - 1)) :
      r ∈ rs ∧ r.id ≠ c.id := by
    obtain ⟨hr, hne⟩ := List.mem_filter.mp (List.mem_of_mem_take hr)
    exact ⟨hr, of_decide_eq_true hne⟩
  refine ⟨_, hcontents, List.pairwise_cons.mpr ⟨fun r hr => ?_, ?_⟩, ?_, ?_⟩
  · obtain ⟨b, hb, hseen⟩ := exists_of_lastTime? (h.times r (hmem hr).1)
    rw [htime, ← hseen]
    exact hlater b hb
  · exact h.sorted.sublist ((List.take_sublist _ _).trans List.filter_sublist)
  · have hfilter : (rs.filter fun r => r.id ≠ c.id).map ErrorRecord.id =
        (rs.map ErrorRecord.id).filter (· ≠ c.id) := by
      rw [List.filter_map]
      rfl
    calc (new :: (rs.filter fun r => r.id ≠ c.id).take (capacity - 1)).map ErrorRecord.id
        = c.id :: (((latest cs).take capacity).filter (· ≠ c.id)).take (capacity - 1) := by
          rw [List.map_cons, hid, List.map_take, hfilter, h.ids]
      _ = c.id :: ((latest cs).filter (· ≠ c.id)).take (capacity - 1) := by
          rw [show capacity = (capacity - 1) + 1 from rfl, Nat.add_sub_cancel,
            take_filter_ne (nodup_latest cs)]
      _ = (latest (cs ++ [c])).take capacity := by
          rw [latest_concat]
          rfl
  · rintro r (_ | ⟨_, hr⟩)
    · rw [hid, htime]
      exact lastTime?_concat_self cs c
    · rw [lastTime?_concat_of_ne (hmem hr).2.symm]
      exact h.times r (hmem hr).1

/-- While time goes forward, the records are those of the latest identities. -/
theorem History.retains (h : History cs d) (hforward : cs.Pairwise fun b c => b.time < c.time) :
    ∃ rs, Retains cs d rs := by
  induction h with
  | refl => exact ⟨[], rfl, .nil, rfl, fun r hr => absurd hr List.not_mem_nil⟩
  | snoc hrun hstep ih =>
    obtain ⟨hbefore, -, hlater⟩ := List.pairwise_append.mp hforward
    obtain ⟨rs, hrs⟩ := ih hbefore
    have hd := History.sound hrun
    exact hrs.record (hstep.effect hd) hd fun b hb => hlater b hb _ (List.mem_singleton_self _)

/-! ### The list -/

theorem listedBefore_iff {r s : ErrorRecord} : listedBefore r s = true ↔
    s.lastSeen.nanos < r.lastSeen.nanos ∨ s.lastSeen.nanos = r.lastSeen.nanos ∧
      (s.count < r.count ∨ s.count = r.count ∧ r.id.toNat ≤ s.id.toNat) := by
  unfold listedBefore
  split
  · rw [decide_eq_true_iff]
    omega
  · split
    · rw [decide_eq_true_iff]
      omega
    · rw [decide_eq_true_iff, UInt64.le_iff_toNat_le]
      omega

theorem pairwise_sorted (d : ErrorDirectory) :
    d.sorted.Pairwise fun r s => listedBefore r s = true := by
  refine List.pairwise_mergeSort (fun r s u hrs hsu => ?_) (fun r s => ?_) _
  · rw [listedBefore_iff] at hrs hsu ⊢
    omega
  · rw [Bool.or_eq_true, listedBefore_iff, listedBefore_iff]
    omega

/-- The records are listed in the order of their last occurrences. -/
theorem Retains.sorted_eq (h : Retains cs d rs) : d.sorted = rs := by
  have hperm : d.sorted.Perm rs :=
    (List.mergeSort_perm _ _).trans (Multiset.coe_eq_coe.mp h.contents)
  have hlisted : rs.Pairwise fun r s => listedBefore r s = true :=
    h.sorted.imp fun hlt => listedBefore_iff.mpr (Or.inl hlt)
  have htimes : (rs.map ErrorRecord.lastSeen).Nodup :=
    List.pairwise_map.mpr (h.sorted.imp fun hlt heq => by
      rw [heq] at hlt
      exact Int.lt_irrefl _ hlt)
  refine hperm.eq_of_pairwise (fun r s hr hs hrs hsr => ?_) d.pairwise_sorted hlisted
  -- two records that are listed before each other were seen last at the same time
  refine List.inj_on_of_nodup_map htimes (hperm.mem_iff.mp hr) hs ?_
  rw [listedBefore_iff] at hrs hsr
  exact Instant.le_antisymm (Int.not_lt.mp (by omega)) (Int.not_lt.mp (by omega))

/-- While time goes forward, a directory holds the records of the identities that have occurred
last, as many as it may have, each with the time of its last occurrence, and lists them in the order
of these times, each once and nothing else. As long as there are no more identities, it holds all of
them. -/
theorem History.retention (h : History cs d)
    (hforward : cs.Pairwise fun b c => b.time < c.time) :
    d.sorted.map ErrorRecord.id = (latest cs).take capacity ∧
    (∀ id, (∃ r, d.get? id = some r) ↔ id ∈ (latest cs).take capacity) ∧
    ((latest cs).length ≤ capacity → ∀ c ∈ cs, ∃ r, d.get? c.id = some r) ∧
    (∀ id r, d.get? id = some r → r.id = id ∧ lastTime? cs id = some r.lastSeen) ∧
    (∀ r, r ∈ d.sorted ↔ d.get? r.id = some r) ∧ d.sorted.Nodup ∧
    d.sorted.Pairwise fun r s => s.lastSeen < r.lastSeen := by
  obtain ⟨rs, hrs⟩ := h.retains hforward
  have hd := h.sound
  have hmem {r : ErrorRecord} : r ∈ d.contents ↔ r ∈ rs := by rw [hrs.contents, Multiset.mem_coe]
  have hholds (id : UInt64) : (∃ r, d.get? id = some r) ↔ id ∈ (latest cs).take capacity := by
    simp only [hd.get?_eq_some_iff, ← hrs.ids, List.mem_map, hmem]
  rw [hrs.sorted_eq]
  refine ⟨hrs.ids, hholds, fun hfew c hc => ?_, fun id r hget => ?_, fun r => ?_, ?_, hrs.sorted⟩
  · rw [hholds, List.take_of_length_le hfew]
    exact mem_latest.mpr ⟨c, hc, rfl⟩
  · obtain ⟨hr, rfl⟩ := hd.get?_eq_some_iff.mp hget
    exact ⟨rfl, hrs.times r (hmem.mp hr)⟩
  · rw [hd.get?_eq_some_iff, hmem]
    exact (and_iff_left rfl).symm
  · refine List.Nodup.of_map ErrorRecord.id ?_
    rw [hrs.ids]
    exact (nodup_latest cs).sublist (List.take_sublist _ _)

/-- As many identities as there may be records occur in turn, the first of them occurs again, and
then a new one. -/
def turnover : List Occurrence :=
  (List.range 128 ++ [0, 128]).zipIdx.map fun p : Nat × Nat =>
    { id := .ofNat p.1, error := { message := "", site := ⟨"", 0, 0⟩ }, time := .ofSecs p.2 }

/-- The second identity has made room for the new one, and the first one is kept. -/
theorem retention_turnover : History (replay turnover).1 (replay turnover).2 ∧
    ((replay turnover).1.Pairwise fun b c => b.time < c.time) ∧
    (replay turnover).2.sorted.map ErrorRecord.id =
      128 :: 0 :: (List.range' 2 126).reverse.map UInt64.ofNat ∧
    (∃ r, (replay turnover).2.get? 0 = some r) ∧ ¬ ∃ r, (replay turnover).2.get? 1 = some r := by
  have hrun := history_replay turnover
  have hforward : (replay turnover).1.Pairwise fun b c => b.time < c.time := by
    have htimes : turnover.Pairwise fun o p => o.time < p.time := by decide +kernel
    rw [← map_replay turnover, List.pairwise_map] at htimes
    exact htimes
  have hlatest : (latest (replay turnover).1).take capacity =
      128 :: 0 :: (List.range' 2 126).reverse.map UInt64.ofNat := by
    have hids : latest (replay turnover).1 = (turnover.map fun o => o.id).dedup.reverse := by
      rw [latest, ← congrArg (List.map fun o => o.id) (map_replay turnover), List.map_map]
      rfl
    rw [hids]
    decide +kernel
  obtain ⟨hlisted, hholds, -⟩ := hrun.retention hforward
  rw [hlatest] at hlisted hholds
  refine ⟨hrun, hforward, hlisted, (hholds 0).mpr (by decide), ?_⟩
  rw [hholds 1]
  decide +kernel

end Metronome.ErrorDirectory
