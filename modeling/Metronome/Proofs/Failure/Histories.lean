import Mathlib.Data.List.Induction
import Mathlib.Data.Multiset.Filter
import Metronome.Proofs.Failure.Occurrences

/-!
# Histories of error directories

A history is what was recorded in a directory that was empty at first: under which identity, at
which time, with which answer, and which directory was found and left. The identities and the times
may be any ones; the times need not go forward.

A directory keeps its records in no particular order. Each recording therefore may find them in
another order than the one before has left them in, so that of several records that have been quiet
the longest any one may have to make room.

## Main definitions

* `ErrorDirectory.contents` — the records, in no order
* `ErrorDirectory.Recording`, `ErrorDirectory.Step`, `ErrorDirectory.History` — what is recorded
* `ErrorDirectory.Sound` — each identity has one record, and there is room for all of them
* `ErrorDirectory.Effect` — all that a recording does to the records
* `ErrorDirectory.replay` — the history of given occurrences

## Main results

* `ErrorDirectory.Step.effect` — what a recording does, by cases
* `ErrorDirectory.History.sound` — directories are sound throughout
* `ErrorDirectory.history_replay` — whatever occurs can be recorded
-/

namespace Metronome

namespace ErrorDirectory

variable {d d' : ErrorDirectory} {id : UInt64} {r s : ErrorRecord}

/-- The records, in no particular order. -/
def contents (d : ErrorDirectory) : Multiset ErrorRecord := d.records

theorem mem_contents : r ∈ d.contents ↔ r ∈ d.records := Multiset.mem_coe

theorem card_contents (d : ErrorDirectory) : d.contents.card = d.size := rfl

/-- Each identity has one record at most, and there are no more records than there may be. -/
structure Sound (d : ErrorDirectory) : Prop where
  nodup : (d.contents.map ErrorRecord.id).Nodup
  size_le : d.size ≤ capacity

theorem sound_empty : Sound {} := ⟨Multiset.nodup_zero, Nat.zero_le _⟩

/-! ### The record of an identity -/

theorem get?_eq_none_iff : d.get? id = none ↔ ∀ r ∈ d.contents, r.id ≠ id := by
  rw [get?, List.find?_eq_none]
  simp only [beq_iff_eq, mem_contents, ne_eq]

/-- Records with one identity are the same record. -/
theorem Sound.eq_of_id_eq (hd : d.Sound) (hr : r ∈ d.contents) (hs : s ∈ d.contents)
    (h : r.id = s.id) : r = s :=
  Multiset.inj_on_of_nodup_map hd.nodup r hr s hs h

theorem Sound.get?_eq_some_iff (hd : d.Sound) :
    d.get? id = some r ↔ r ∈ d.contents ∧ r.id = id := by
  constructor
  · intro h
    exact ⟨mem_contents.mpr (List.mem_of_find?_eq_some h), id_of_get? h⟩
  · rintro ⟨hr, rfl⟩
    cases hget : d.get? r.id with
    | none => exact absurd rfl (get?_eq_none_iff.mp hget r hr)
    | some s =>
      have hs := mem_contents.mpr (List.mem_of_find?_eq_some hget)
      rw [hd.eq_of_id_eq hs hr (id_of_get? hget)]

/-- The other records are those of other identities. -/
theorem Sound.erase_eq_filter (hd : d.Sound) (hr : r ∈ d.contents) :
    d.contents.erase r = d.contents.filter fun s => s.id ≠ r.id := by
  obtain ⟨rest, hrest⟩ := Multiset.exists_cons_of_mem hr
  have hnodup := hd.nodup
  rw [hrest, Multiset.map_cons, Multiset.nodup_cons] at hnodup
  have hothers : ∀ s ∈ rest, s.id ≠ r.id := fun s hs heq =>
    hnodup.1 (Multiset.mem_map.mpr ⟨s, hs, heq⟩)
  rw [hrest, Multiset.erase_cons_head,
    Multiset.filter_cons_of_neg (p := fun s : ErrorRecord => s.id ≠ r.id) _ (not_not_intro rfl),
    Multiset.filter_eq_self.mpr hothers]

/-! ### What is recorded -/

/-- What occurs: an error at a time, under an identity. -/
structure Occurrence where
  id : UInt64
  error : TracedError
  time : Instant

/-- An occurrence that was recorded, with the number that was answered and the directories that were
found and left. -/
structure Recording extends Occurrence where
  answer : Nat
  found : ErrorDirectory
  left : ErrorDirectory

/-- The record of an identity that has occurred for the first time. -/
def Occurrence.first (o : Occurrence) : ErrorRecord := .first o.id o.error o.time

/-- An occurrence is recorded, in whatever order the records are found. -/
structure Step (d : ErrorDirectory) (c : Recording) (d' : ErrorDirectory) : Prop where
  found : c.found = d
  left : c.left = d'
  recorded : ∃ shuffled : ErrorDirectory, shuffled.contents = d.contents ∧
    shuffled.recordAs c.id c.error c.time = (c.answer, d')

/-- An error that is recorded under its own identity is one of them. -/
theorem step_record (d : ErrorDirectory) (e : TracedError) (t : Instant) :
    Step d ⟨⟨e.id, e, t⟩, (d.record e t).1, d, (d.record e t).2⟩ (d.record e t).2 :=
  ⟨rfl, rfl, d, rfl, rfl⟩

/-- What was recorded in a directory that was empty at first. -/
abbrev History : List Recording → ErrorDirectory → Prop := Course Step {}

/-- All that a recording does to the records. -/
inductive Effect (d : ErrorDirectory) (c : Recording) (d' : ErrorDirectory) : Prop
  /-- The identity has a record, which counts one more occurrence. -/
  | known (r : ErrorRecord) (mem : r ∈ d.contents) (same : r.id = c.id)
      (answer : c.answer = r.count + 1)
      (left : d'.contents = r.again c.time ::ₘ d.contents.erase r)
  /-- The identity is new, and there is room for it. -/
  | room (new : ∀ r ∈ d.contents, r.id ≠ c.id) (room : d.size < capacity) (answer : c.answer = 1)
      (left : d'.contents = c.first ::ₘ d.contents)
  /-- The identity is new, and one that has been quiet the longest makes room. -/
  | full (new : ∀ r ∈ d.contents, r.id ≠ c.id) (full : capacity ≤ d.size) (answer : c.answer = 1)
      (stale : ErrorRecord) (mem : stale ∈ d.contents)
      (quietest : ∀ r ∈ d.contents, stale.lastSeen ≤ r.lastSeen)
      (left : d'.contents = c.first ::ₘ d.contents.erase stale)

variable {c : Recording} {cs : List Recording}

theorem quietest_eq_none_iff {rs : List ErrorRecord} : quietest rs = none ↔ rs = [] := by
  cases rs with
  | nil => simp [quietest]
  | cons r rs =>
    unfold quietest
    split
    · simp
    · split <;> simp

/-- The record that has been quiet the longest was not seen later than any other. -/
theorem quietest_eq_some {rs : List ErrorRecord} (h : quietest rs = some s) :
    s ∈ rs ∧ ∀ r ∈ rs, s.lastSeen ≤ r.lastSeen := by
  induction rs generalizing s with
  | nil => cases h
  | cons r rs ih =>
    unfold quietest at h
    split at h
    · next hnone =>
      rw [quietest_eq_none_iff] at hnone
      cases h
      rw [hnone]
      exact ⟨List.mem_singleton_self r, fun r' hr' => List.mem_singleton.mp hr' ▸ Int.le_refl _⟩
    · next s' hs' =>
      obtain ⟨hmem, hle⟩ := ih hs'
      split at h
      · next hearlier =>
        cases h
        refine ⟨List.mem_cons_self, List.forall_mem_cons.mpr ⟨Int.le_refl _, fun r' hr' => ?_⟩⟩
        exact Int.le_trans hearlier (hle r' hr')
      · next hlater =>
        cases h
        refine ⟨List.mem_cons_of_mem r hmem, List.forall_mem_cons.mpr ⟨?_, hle⟩⟩
        exact Int.le_of_lt (Int.not_le.mp hlater)

/-- A known identity: its record counts one more occurrence, and all others stay. -/
theorem Sound.contents_again (hd : d.Sound) (hr : r ∈ d.contents) (t : Instant) :
    ((d.records.map fun s => if s.id == r.id then s.again t else s : List ErrorRecord) :
      Multiset ErrorRecord) = r.again t ::ₘ d.contents.erase r := by
  have hothers : (d.contents.erase r).map (fun s => if s.id == r.id then s.again t else s) =
      d.contents.erase r := by
    refine (Multiset.map_congr rfl fun s hs => if_neg ?_).trans (Multiset.map_id' _)
    rw [hd.erase_eq_filter hr, Multiset.mem_filter] at hs
    simpa using hs.2
  calc ((d.records.map fun s => if s.id == r.id then s.again t else s : List ErrorRecord) :
          Multiset ErrorRecord)
      = d.contents.map (fun s => if s.id == r.id then s.again t else s) :=
        (Multiset.map_coe _ _).symm
    _ = (r ::ₘ d.contents.erase r).map (fun s => if s.id == r.id then s.again t else s) := by
        rw [Multiset.cons_erase hr]
    _ = r.again t ::ₘ d.contents.erase r := by
        rw [Multiset.map_cons, hothers, if_pos (beq_self_eq_true r.id)]

/-- A full directory gives up a record that has been quiet the longest. -/
theorem Sound.makeRoom_of_full (hd : d.Sound) (hfull : capacity ≤ d.size) :
    ∃ stale ∈ d.contents, (∀ r ∈ d.contents, stale.lastSeen ≤ r.lastSeen) ∧
      (makeRoom d.records : Multiset ErrorRecord) = d.contents.erase stale := by
  have hnot : ¬ d.records.length < capacity := Nat.not_lt.mpr hfull
  unfold makeRoom
  rw [if_neg hnot]
  split
  · next hnone =>
    rw [size, quietest_eq_none_iff.mp hnone] at hfull
    exact absurd hfull (by decide)
  · next stale hstale =>
    obtain ⟨hmem, hle⟩ := quietest_eq_some hstale
    refine ⟨stale, mem_contents.mpr hmem, fun r hr => hle r (mem_contents.mp hr), ?_⟩
    rw [hd.erase_eq_filter (mem_contents.mpr hmem), contents, Multiset.filter_coe]
    simp only [ne_eq, decide_not, bne]
    rfl

/-- What is recorded in a sound directory. -/
theorem Step.effect (h : Step d c d') (hd : d.Sound) : Effect d c d' := by
  obtain ⟨-, -, shuffled, hcontents, hrecord⟩ := h
  have hs : shuffled.Sound :=
    ⟨hcontents ▸ hd.nodup, by rw [← card_contents, hcontents, card_contents]; exact hd.size_le⟩
  have hsize : shuffled.size = d.size := by rw [← card_contents, hcontents, card_contents]
  unfold recordAs at hrecord
  split at hrecord
  · next r hget =>
    obtain ⟨hr, hid⟩ := hs.get?_eq_some_iff.mp hget
    obtain ⟨hanswer, rfl⟩ := Prod.mk.inj hrecord
    refine .known r (hcontents ▸ hr) hid hanswer.symm ?_
    rw [contents, ← hid, hs.contents_again hr, hcontents]
  · next hget =>
    obtain ⟨hanswer, rfl⟩ := Prod.mk.inj hrecord
    have hnew : ∀ r ∈ d.contents, r.id ≠ c.id := hcontents ▸ get?_eq_none_iff.mp hget
    have happend : (makeRoom shuffled.records ++ [.first c.id c.error c.time] : List ErrorRecord) =
        (c.first ::ₘ (makeRoom shuffled.records : Multiset ErrorRecord)) :=
      Multiset.coe_eq_coe.mpr (List.perm_append_singleton _ _)
    by_cases hroom : shuffled.size < capacity
    · refine .room hnew (hsize ▸ hroom) hanswer.symm ?_
      have hlength : shuffled.records.length < capacity := hroom
      rw [contents, happend, makeRoom, if_pos hlength, ← hcontents]
      rfl
    · obtain ⟨stale, hmem, hle, hleft⟩ := hs.makeRoom_of_full (Nat.not_lt.mp hroom)
      refine .full hnew (hsize ▸ Nat.not_lt.mp hroom) hanswer.symm stale (hcontents ▸ hmem)
        (hcontents ▸ hle) ?_
      rw [contents, happend, hleft, hcontents]

/-! ### What a recording keeps -/

/-- The record of what occurs joins the records that are kept. -/
theorem Effect.exists_cons (h : Effect d c d') :
    ∃ new rest, new.id = c.id ∧ rest ≤ d.contents ∧ d'.contents = new ::ₘ rest := by
  cases h with
  | known r mem same answer left =>
    exact ⟨r.again c.time, _, same, Multiset.erase_le r _, left⟩
  | room new room answer left => exact ⟨c.first, _, rfl, le_rfl, left⟩
  | full new full answer stale mem quietest left =>
    exact ⟨c.first, _, rfl, Multiset.erase_le stale _, left⟩

/-- The records of other identities were there before. -/
theorem Effect.mem_of_ne (h : Effect d c d') (hr : r ∈ d'.contents) (hid : r.id ≠ c.id) :
    r ∈ d.contents := by
  obtain ⟨new, rest, hnew, hle, hleft⟩ := h.exists_cons
  rw [hleft, Multiset.mem_cons] at hr
  obtain rfl | hr := hr
  · exact absurd hnew hid
  · exact Multiset.mem_of_le hle hr

theorem Effect.sound (h : Effect d c d') (hd : d.Sound) : d'.Sound := by
  have hnew (hnew : ∀ r ∈ d.contents, r.id ≠ c.id) : c.id ∉ d.contents.map ErrorRecord.id := by
    rw [Multiset.mem_map]
    rintro ⟨r, hr, hid⟩
    exact hnew r hr hid
  have hsize := hd.size_le
  rw [← card_contents] at hsize
  cases h with
  | known r mem same answer left =>
    -- the identities are those that there were
    have hids : d'.contents.map ErrorRecord.id = d.contents.map ErrorRecord.id := by
      rw [left, ← Multiset.cons_erase mem, Multiset.map_cons, Multiset.map_cons,
        Multiset.erase_cons_head]
      rfl
    refine ⟨hids ▸ hd.nodup, ?_⟩
    rw [← card_contents, ← Multiset.card_map ErrorRecord.id, hids, Multiset.card_map]
    exact hsize
  | room new room answer left =>
    refine ⟨?_, ?_⟩
    · rw [left, Multiset.map_cons, Multiset.nodup_cons]
      exact ⟨hnew new, hd.nodup⟩
    · rw [← card_contents, left, Multiset.card_cons]
      exact room
  | full new full answer stale mem quietest left =>
    have hsub : (d.contents.erase stale).map ErrorRecord.id ≤ d.contents.map ErrorRecord.id :=
      Multiset.map_le_map (Multiset.erase_le stale _)
    refine ⟨?_, ?_⟩
    · rw [left, Multiset.map_cons, Multiset.nodup_cons]
      exact ⟨fun hmem => hnew new (Multiset.mem_of_le hsub hmem),
        Multiset.nodup_of_le hsub hd.nodup⟩
    · rw [← card_contents, left, Multiset.card_cons, Multiset.card_erase_add_one mem]
      exact hsize

/-- Directories are sound throughout. -/
theorem History.sound (h : History cs d) : d.Sound :=
  Course.preserves (fun hstep hd => (hstep.effect hd).sound hd) h sound_empty

/-! ### Given occurrences -/

/-- The history of given occurrences, where the records are found in the order in which they were
left. -/
def replay (os : List Occurrence) : List Recording × ErrorDirectory :=
  os.foldl (fun h o =>
    let (answer, left) := h.2.recordAs o.id o.error o.time
    (h.1 ++ [⟨o, answer, h.2, left⟩], left)) ([], {})

theorem replay_concat (os : List Occurrence) (o : Occurrence) :
    replay (os ++ [o]) =
      let (answer, left) := (replay os).2.recordAs o.id o.error o.time
      ((replay os).1 ++ [⟨o, answer, (replay os).2, left⟩], left) := by
  rw [replay, List.foldl_append]
  rfl

/-- Whatever occurs can be recorded. -/
theorem history_replay (os : List Occurrence) : History (replay os).1 (replay os).2 := by
  induction os using List.reverseRecOn with
  | nil => exact .refl _
  | append_singleton os o ih =>
    rw [replay_concat]
    exact ih.snoc ⟨rfl, rfl, _, rfl, rfl⟩

theorem map_replay (os : List Occurrence) : (replay os).1.map Recording.toOccurrence = os := by
  induction os using List.reverseRecOn with
  | nil => rfl
  | append_singleton os o ih =>
    rw [replay_concat]
    dsimp only
    rw [List.map_append, ih]
    rfl

end ErrorDirectory

end Metronome
