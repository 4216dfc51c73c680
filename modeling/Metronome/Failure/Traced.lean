import Metronome.Digest.Sha256
import Metronome.Error
import Metronome.Text.Numeral
import Metronome.Text.Quoted

/-!
# Traced errors

A traced error is a message together with the site at which it arose. Site and message make up
its identity, so that repeated failures at one place can be counted instead of kept one by one.

## Main definitions

* `Site` — a line and column of a file
* `TracedError` — an error with its site, and the error that it wraps, if any
* `TracedError.id` — the identity, eight bytes of a digest
* `PanicPayload`, `TracedError.ofPanic` — what a callback that did not return has left behind
-/

namespace Metronome

/-- A place in a file. -/
structure Site where
  file : String
  line : Nat
  column : Nat
deriving DecidableEq, Repr

/-- The written form of a site. -/
def Site.text (s : Site) : String :=
  s.file ++ ":" ++ toString s.line ++ ":" ++ toString s.column

/-- An error that a traced error can wrap. -/
inductive Source
  | numeral (e : Text.NumeralError)
  | pool (e : PoolError)
deriving DecidableEq

/-- The wording of a wrapped error. -/
def Source.message : Source → String
  | .numeral e => e.message
  | .pool e => e.message

/-- A wrapped error as it is shown to a developer. -/
def Source.debug : Source → String
  | .numeral e =>
    let kind := match e with
      | .empty => "Empty"
      | .invalidDigit => "InvalidDigit"
      | .tooLarge => "PosOverflow"
    Text.record "ParseIntError" [("kind", kind)]
  | .pool (.full capacity) => Text.record "Full" [("capacity", toString capacity)]
  | .pool .closed => "Closed"

/-- An error with the site at which it arose. -/
structure TracedError where
  message : String
  site : Site
  /-- The error that is wrapped. -/
  source : Option Source := none
  /-- The calls that led to the error, in the wording of the system. Recovered panics have them. -/
  backtrace : Option String := none
deriving DecidableEq

namespace TracedError

/-- The error with the wording of another error, which it wraps. -/
def wrap (site : Site) (source : Source) : TracedError :=
  { message := source.message, site := site, source := some source }

/-- The bytes that determine the identity of an error at a site: the site, a zero and the
message. -/
def identityBytes (site : Site) (message : String) : List UInt8 :=
  site.text.toUTF8.toList ++ 0 :: message.toUTF8.toList

/-- The identity of an error: the first eight bytes of the digest of site and message. -/
def id (e : TracedError) : UInt64 :=
  let digest := Sha256.hash (identityBytes e.site e.message)
  (digest.a.toUInt64 <<< 32) ||| digest.b.toUInt64

/-- Whether the calls that led to the error are known. -/
def hasBacktrace (e : TracedError) : Bool := e.backtrace.isSome

/-- The message followed by the site. -/
def text (e : TracedError) : String := e.message ++ " (at " ++ e.site.text ++ ")"

/-- An error as it is shown to a developer. -/
def debug (e : TracedError) : String :=
  "TracedError \x7b message: " ++ Text.quote e.message ++ ", site: " ++ Text.quote e.site.text ++
    ", source: " ++ Text.option (e.source.map Source.debug) ++ ", .. \x7d"

end TracedError

/-- What a callback that panicked has left behind. -/
inductive PanicPayload
  | text (s : String)
  | traced (e : TracedError)
  | other
deriving DecidableEq

/-- The message of a payload. -/
def PanicPayload.message : PanicPayload → String
  | .text s => s
  | .traced e => e.message
  | .other => "unknown panic payload"

/-- The error that a panic recovered at a site becomes, with the calls that led there. A payload
that is a traced error already stays as it is. -/
def TracedError.ofPanicWith (site : Site) (calls : String) : PanicPayload → TracedError
  | .traced e => e
  | p => { message := "panic: " ++ p.message, site := site, backtrace := some calls }

/-- The error that a panic recovered at a site becomes, where nobody reads the calls. -/
def TracedError.ofPanic (site : Site) (payload : PanicPayload) : TracedError :=
  .ofPanicWith site "" payload

end Metronome
