import Mathlib.Data.List.Basic
import Metronome.Proofs.Failure.Occurrences

/-!
# Identities of errors

The identity of an error is a shortened digest of some bytes: its site, a zero and its message. The
bytes determine site and message, whatever the message is, as long as no file has a NUL in its name.
The site ends at the first zero, since no other character than NUL has a zero among its bytes. Within
the site the two last colons count, since there is none in a number, so that the name of the file may
contain colons and digits as it likes.

Two errors are therefore counted as one only if they agree in site and message, or if their bytes
are a collision of the digest.

## Main definitions

* `TracedError.shortDigest` — the digest as far as identities go
* `TracedError.Collides` — different bytes with the same shortened digest

## Main results

* `Text.utf8_injective`, `Site.text_injective` — texts and sites can be read back
* `TracedError.identity_unambiguous` — bytes determine the error, and so do identities but for
  collisions
-/

namespace Metronome

/-! ### Separators -/

section Separators

variable {α : Type} {a : α} {before before' after after' : List α}

/-- What stands around the first separator is determined. -/
theorem eq_of_append_cons_eq (hbefore : a ∉ before) (hbefore' : a ∉ before')
    (h : before ++ a :: after = before' ++ a :: after') : before = before' ∧ after = after' := by
  rcases List.append_eq_append_iff.mp h with ⟨between, rfl, hafter⟩ | ⟨between, rfl, hafter⟩ <;>
    cases between with
    | nil =>
      cases hafter
      simp
    | cons b between =>
      obtain ⟨rfl, -⟩ := List.cons.inj hafter
      simp at hbefore hbefore'

/-- What stands around the last separator is determined. -/
theorem eq_of_append_cons_eq_last (hafter : a ∉ after) (hafter' : a ∉ after')
    (h : before ++ a :: after = before' ++ a :: after') : before = before' ∧ after = after' := by
  have hreverse : after.reverse ++ a :: before.reverse = after'.reverse ++ a :: before'.reverse := by
    simpa using congrArg List.reverse h
  obtain ⟨hafters, hbefores⟩ :=
    eq_of_append_cons_eq (by simpa using hafter) (by simpa using hafter') hreverse
  exact ⟨List.reverse_injective hbefores, List.reverse_injective hafters⟩

end Separators

/-! ### Texts as bytes -/

namespace Text

variable {s t : String} {c : Char}

theorem toList_loop (b : ByteArray) (i : Nat) (r : List UInt8) :
    ByteArray.toList.loop b i r = r.reverse ++ b.data.toList.drop i := by
  fun_induction ByteArray.toList.loop b i r with
  | case1 i r hi ih =>
    have hlt : i < b.data.toList.length := by simpa using hi
    have hget : b.get! i = b.data.toList[i] :=
      (getElem!_pos b.data i hlt).trans (Array.getElem_toList ..).symm
    rw [ih, hget, List.reverse_cons, List.append_assoc, List.singleton_append,
      List.getElem_cons_drop]
  | case2 i r hi =>
    rw [List.drop_eq_nil_of_le (by simpa using hi), List.append_nil]

theorem toList_eq_data (b : ByteArray) : b.toList = b.data.toList := by
  rw [ByteArray.toList, toList_loop]
  rfl

/-- The bytes of a text are those of its characters. -/
theorem toList_toUTF8 (s : String) : s.toUTF8.toList = s.toList.flatMap String.utf8EncodeChar := by
  rw [toList_eq_data, String.toUTF8_eq_toByteArray, ← String.ofList_toList (s := s),
    String.toByteArray_ofList, List.utf8Encode, List.toList_data_toByteArray, String.toList_ofList]

/-- The bytes of a text determine it. -/
theorem utf8_injective (h : s.toUTF8.toList = t.toUTF8.toList) : s = t := by
  rw [toList_eq_data, toList_eq_data] at h
  exact String.toByteArray_inj.mp (ByteArray.ext (Array.toList_inj.mp h))

/-- Only NUL has a zero among its bytes. -/
theorem eq_nul_of_mem (h : 0 ∈ String.utf8EncodeChar c) : c = '\x00' := by
  have hval : c.val.toNat = 0 := by
    -- all bytes of the longer forms are at least 128
    unfold String.utf8EncodeChar at h
    dsimp only at h
    split_ifs at h <;>
      simp only [List.mem_cons, List.not_mem_nil, or_false, ← UInt8.toNat_inj, UInt8.toNat_zero,
        UInt8.toNat_ofNat'] at h <;>
      omega
  exact Char.ext (UInt32.toNat_inj.mp hval)

theorem zero_notMem_utf8 (h : '\x00' ∉ s.toList) : 0 ∉ s.toUTF8.toList := by
  rw [toList_toUTF8, List.mem_flatMap]
  rintro ⟨c, hc, hzero⟩
  exact h (eq_nul_of_mem hzero ▸ hc)

theorem toList_toString (n : Nat) : (toString n).toList = Nat.toDigits 10 n := by
  rw [show toString n = String.ofList (Nat.toDigits 10 n) from rfl, String.toList_ofList]

/-- A written number consists of digits. -/
theorem notMem_toString (hc : c.isDigit = false) (n : Nat) : c ∉ (toString n).toList := by
  rw [toList_toString]
  exact fun h => Bool.eq_false_iff.mp hc (Nat.isDigit_of_mem_toDigits (by decide) (by decide) h)

/-- The digits of a number determine it. -/
theorem toString_injective {m n : Nat} (h : (toString m).toList = (toString n).toList) : m = n := by
  have hnumber (k : Nat) : Nat.ofDigitChars 10 (toString k).toList 0 = k := by
    rw [toList_toString]
    exact Nat.ofDigitChars_toDigits (by decide) (by decide)
  rw [← hnumber m, h, hnumber n]

end Text

/-! ### Sites -/

namespace Site

variable {s s' : Site}

theorem toList_text (s : Site) : s.text.toList =
    (s.file.toList ++ ':' :: (toString s.line).toList) ++ ':' :: (toString s.column).toList := by
  simp [text]

/-- A written site can be read back from its end. -/
theorem text_injective (h : s.text = s'.text) : s = s' := by
  have hcolon : ∀ n : Nat, ':' ∉ (toString n).toList := Text.notMem_toString (by decide)
  have hchars := congrArg String.toList h
  rw [toList_text, toList_text] at hchars
  obtain ⟨hfront, hcolumn⟩ := eq_of_append_cons_eq_last (hcolon s.column) (hcolon s'.column) hchars
  obtain ⟨hfile, hline⟩ := eq_of_append_cons_eq_last (hcolon s.line) (hcolon s'.line) hfront
  obtain ⟨file, line, column⟩ := s
  obtain ⟨file', line', column'⟩ := s'
  cases String.toList_inj.mp hfile
  cases Text.toString_injective hline
  cases Text.toString_injective hcolumn
  rfl

theorem nul_notMem_text (h : '\x00' ∉ s.file.toList) : '\x00' ∉ s.text.toList := by
  have hnumber : ∀ n : Nat, '\x00' ∉ (toString n).toList := Text.notMem_toString (by decide)
  rw [toList_text]
  simp only [List.mem_append, List.mem_cons, not_or]
  exact ⟨⟨h, by decide, hnumber s.line⟩, by decide, hnumber s.column⟩

end Site

/-! ### Identities -/

/-- An occurrence counts for the identity of its error alone. -/
theorem ErrorDirectory.id_eq_of_occurrences_lt {d : ErrorDirectory} {e : TracedError} {id : UInt64}
    {t : Instant} (h : d.occurrences id < (d.record e t).2.occurrences id) : id = e.id := by
  by_contra hid
  rcases (gains_record d e t).others id hid with hsame | ⟨-, -, hgone⟩
  · rw [occurrences, occurrences, hsame] at h
    exact absurd h (Nat.lt_irrefl _)
  · rw [occurrences, occurrences, hgone] at h
    exact absurd h (Nat.not_lt_zero _)

namespace TracedError

variable {e e' : TracedError}

/-- The digest of some bytes as far as identities go: its first eight bytes. -/
def shortDigest (bytes : List UInt8) : UInt64 :=
  let digest := Sha256.hash bytes
  (digest.a.toUInt64 <<< 32) ||| digest.b.toUInt64

theorem id_eq_shortDigest (e : TracedError) :
    e.id = shortDigest (identityBytes e.site e.message) := rfl

/-- Different bytes have the same shortened digest. -/
def Collides (bytes bytes' : List UInt8) : Prop :=
  bytes ≠ bytes' ∧ shortDigest bytes = shortDigest bytes'

/-- Site and message can be read back from the bytes, which the first zero divides. -/
theorem identityBytes_inj {site site' : Site} {message message' : String}
    (hfile : '\x00' ∉ site.file.toList) (hfile' : '\x00' ∉ site'.file.toList) :
    identityBytes site message = identityBytes site' message' ↔
      site = site' ∧ message = message' := by
  constructor
  · intro h
    have hsite := Text.zero_notMem_utf8 (Site.nul_notMem_text hfile)
    have hsite' := Text.zero_notMem_utf8 (Site.nul_notMem_text hfile')
    obtain ⟨htext, hmessage⟩ := eq_of_append_cons_eq hsite hsite' h
    exact ⟨Site.text_injective (Text.utf8_injective htext), Text.utf8_injective hmessage⟩
  · rintro ⟨rfl, rfl⟩
    rfl

/-- As long as no file has a NUL in its name, two errors have the same bytes only if they agree in
file, line, column and message. An occurrence of the one therefore counts for the other only if they
agree, or if their bytes are a collision of the digest. -/
theorem identity_unambiguous (hfile : '\x00' ∉ e.site.file.toList)
    (hfile' : '\x00' ∉ e'.site.file.toList) :
    (identityBytes e.site e.message = identityBytes e'.site e'.message ↔
      e.site = e'.site ∧ e.message = e'.message) ∧
    ∀ (d : ErrorDirectory) (t : Instant),
      d.occurrences e.id < (d.record e' t).2.occurrences e.id →
      e.site = e'.site ∧ e.message = e'.message ∨
        Collides (identityBytes e.site e.message) (identityBytes e'.site e'.message) := by
  have hbytes : identityBytes e.site e.message = identityBytes e'.site e'.message ↔
      e.site = e'.site ∧ e.message = e'.message := identityBytes_inj hfile hfile'
  refine ⟨hbytes, fun d t hcounts => ?_⟩
  have hid : e.id = e'.id := ErrorDirectory.id_eq_of_occurrences_lt hcounts
  rw [id_eq_shortDigest, id_eq_shortDigest] at hid
  rw [← hbytes]
  by_cases hsame : identityBytes e.site e.message = identityBytes e'.site e'.message
  · exact Or.inl hsame
  · exact Or.inr ⟨hsame, hid⟩

/-- An error whose site ends like a file with a line, and whose message has a zero and colons. -/
def odd : TracedError where
  message := "4\x00:5"
  site := { file := "a:1", line := 2, column := 3 }

/-- An error with the same characters but one, divided differently. -/
def odder : TracedError where
  message := ":3\x004\x00:5"
  site := { file := "a", line := 1, column := 2 }

/-- The first error once more, out of a panic. -/
def oddPanic : TracedError := { odd with backtrace := some "main" }

/-- The bytes tell the first two errors apart, and the third one counts for the first. -/
theorem identity_unambiguous_odd :
    ('\x00' ∉ odd.site.file.toList ∧ '\x00' ∉ odder.site.file.toList ∧
      identityBytes odd.site odd.message ≠ identityBytes odder.site odder.message) ∧
    ('\x00' ∉ oddPanic.site.file.toList ∧
      ({} : ErrorDirectory).occurrences odd.id <
        (({} : ErrorDirectory).record oddPanic (.ofSecs 0)).2.occurrences odd.id ∧
      (odd.site = oddPanic.site ∧ odd.message = oddPanic.message ∨
        Collides (identityBytes odd.site odd.message)
          (identityBytes oddPanic.site oddPanic.message))) := by
  have hodd : '\x00' ∉ odd.site.file.toList := by decide
  have hodder : '\x00' ∉ odder.site.file.toList := by decide
  have hpanic : '\x00' ∉ oddPanic.site.file.toList := by decide
  obtain ⟨hbytes, -⟩ := identity_unambiguous hodd hodder
  obtain ⟨-, hcounted⟩ := identity_unambiguous hodd hpanic
  have hgains := (ErrorDirectory.gains_record {} oddPanic (.ofSecs 0)).occurrences
  have hcounts := Nat.lt_of_lt_of_eq (Nat.lt_succ_self _) hgains.symm
  exact ⟨⟨hodd, hodder, fun h => absurd (hbytes.mp h).2 (by decide)⟩, hpanic, hcounts,
    hcounted {} (.ofSecs 0) hcounts⟩

/-- A file with a NUL in its name could be taken for another one. -/
example : identityBytes ⟨"a", 1, 1⟩ "b:1:1\x00c" = identityBytes ⟨"a:1:1\x00b", 1, 1⟩ "c" := by
  decide +kernel

end TracedError

end Metronome
