import Metronome.Failure.Traced
import Metronome.Time.Instant

/-!
# Error directories

An error directory counts the errors of a job by identity. It holds a bounded number of records;
when a new identity does not fit, the record that has been quiet the longest makes room.

## Main definitions

* `ErrorRecord` — the occurrences of one identity, summed up
* `ErrorDirectory.recordAs` — an occurrence under a given identity
* `ErrorDirectory.record` — an occurrence under the identity of the error
* `ErrorDirectory.sorted`, `ErrorDirectory.byMessage` — the records, the most recently seen first
  or in the order of their messages
-/

namespace Metronome

/-- The occurrences of one identity. -/
structure ErrorRecord where
  id : UInt64
  site : Site
  message : String
  firstSeen : Instant
  lastSeen : Instant
  count : Nat
  /-- The calls that led to the first occurrence. -/
  backtrace : Option String
deriving DecidableEq

/-- The record of the first occurrence of an identity. -/
def ErrorRecord.first (id : UInt64) (e : TracedError) (t : Instant) : ErrorRecord :=
  { id := id, site := e.site, message := e.message, firstSeen := t, lastSeen := t, count := 1,
    backtrace := e.backtrace }

/-- Whether the calls that led to the first occurrence are known. -/
def ErrorRecord.hasBacktrace (r : ErrorRecord) : Bool := r.backtrace.isSome

/-- One more occurrence of the same identity. -/
def ErrorRecord.again (r : ErrorRecord) (t : Instant) : ErrorRecord :=
  { r with count := r.count + 1, lastSeen := t }

/-- The errors of a job by identity. No two records have the same identity. -/
structure ErrorDirectory where
  records : List ErrorRecord := []
deriving DecidableEq, Inhabited

namespace ErrorDirectory

/-- The greatest number of records. -/
def capacity : Nat := 128

/-- The number of records. -/
def size (d : ErrorDirectory) : Nat := d.records.length

/-- The record of an identity. -/
def get? (d : ErrorDirectory) (id : UInt64) : Option ErrorRecord :=
  d.records.find? fun r => r.id == id

/-- The record that has been quiet the longest, the first one of several. -/
def quietest : List ErrorRecord → Option ErrorRecord
  | [] => none
  | r :: rs =>
    match quietest rs with
    | none => some r
    | some s => if r.lastSeen ≤ s.lastSeen then some r else some s

/-- The records that remain when room is needed for one more. -/
def makeRoom (records : List ErrorRecord) : List ErrorRecord :=
  if records.length < capacity then records
  else
    match quietest records with
    | none => records
    | some stale => records.filter fun r => r.id != stale.id

/-- Counts an occurrence of an error at a time under a given identity. The number of occurrences
since the identity came in is the first component. -/
def recordAs (d : ErrorDirectory) (id : UInt64) (e : TracedError) (t : Instant) :
    Nat × ErrorDirectory :=
  match d.get? id with
  | some r =>
    (r.count + 1, ⟨d.records.map fun r => if r.id == id then r.again t else r⟩)
  | none =>
    -- room is made before the new record comes in, so that it is never the one to go
    (1, ⟨makeRoom d.records ++ [.first id e t]⟩)

/-- Counts an occurrence of an error at a time. -/
def record (d : ErrorDirectory) (e : TracedError) (t : Instant) : Nat × ErrorDirectory :=
  d.recordAs e.id e t

/-- Whether a record is listed before another: it was seen later, or at the same time and more
often, or as often under a smaller identity. -/
def listedBefore (r s : ErrorRecord) : Bool :=
  if r.lastSeen.nanos ≠ s.lastSeen.nanos then s.lastSeen.nanos < r.lastSeen.nanos
  else if r.count ≠ s.count then s.count < r.count
  else r.id ≤ s.id

/-- The records, the most recently seen first. -/
def sorted (d : ErrorDirectory) : List ErrorRecord := d.records.mergeSort listedBefore

/-- The records in the order of their messages, those of one message in the order of their sites. -/
def byMessage (d : ErrorDirectory) : List ErrorRecord :=
  d.records.mergeSort fun r s =>
    if r.message = s.message then r.site.text ≤ s.site.text else r.message < s.message

end ErrorDirectory

end Metronome
