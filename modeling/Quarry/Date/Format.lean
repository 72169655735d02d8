/-
# Date formats

Dates are kept as canonical timestamps. Clients send and expect them as counts since 1970.

* `DateFormat` — milliseconds, seconds, or a format of another name, which converts nothing.
* `DateFormat.toCanonical` — from a client's value to what is kept.
* `DateFormat.ofCanonical` — back.
* `FormatError` — why a value cannot be converted.
-/
import Quarry.Date.Canonical
import Quarry.Json.Printer
import Quarry.Text.Blank

namespace Quarry.Date

open Quarry.Text

/-! ## Formats -/

/-- A format of dates outside. -/
inductive DateFormat where
  /-- Milliseconds since 1970. -/
  | epochMillis
  /-- Seconds since 1970. -/
  | epochSecond
  /-- A format by name whose values are left as they are. -/
  | passthrough (name : String)
  deriving DecidableEq, Repr

namespace DateFormat

/-- The format with a name. -/
def ofName (name : String) : DateFormat :=
  if name = "epoch_millis" then .epochMillis
  else if name = "epoch_second" then .epochSecond
  else .passthrough name

/-- The name of a format. -/
def name : DateFormat → String
  | .epochMillis => "epoch_millis"
  | .epochSecond => "epoch_second"
  | .passthrough name => name

/-- Whether values are left as they are. -/
def isPassthrough : DateFormat → Bool
  | .passthrough _ => true
  | _ => false

end DateFormat

/-- The format of range bounds that do not name one. -/
def defaultRangeFormat : String := "epoch_millis"

/-! ## Errors -/

/-- Why a date cannot be converted. -/
inductive FormatError where
  /-- A string is not an integer. -/
  | notInteger (text format : String)
  /-- A value is neither a number nor a string. -/
  | notNumeral (value format : String)
  /-- A count lies outside the calendar. -/
  | outOfRange (count : Int) (format : String)
  /-- A kept text is not a timestamp. -/
  | notTimestamp (text : String)
  /-- A kept value is not a text. -/
  | notText (field value : String)
  deriving DecidableEq, Repr

/-- The message for a date that cannot be converted. -/
def FormatError.message : FormatError → String
  | .notInteger text format =>
    "couldn't parse value '" ++ text ++ "' to format " ++ format
  | .notNumeral value format =>
    "expected a number or numeral string for format " ++ format ++ ", got " ++ value
  | .outOfRange count format =>
    Digits.ofInt count ++ " is out of range for format " ++ format
  | .notTimestamp text =>
    "stored value '" ++ text ++ "' is not a canonical timestamp: <chrono>"
  | .notText field value =>
    "stored date field '" ++ field ++ "' is not canonical text: " ++ value

/-! ## Conversion -/

/-- The count since 1970 that a value gives. Fractions are cut off, and a number that is too large
is brought to the nearest 64-bit integer. -/
def epochCount (format : String) : Json → Except FormatError Int
  | .number (.int n) => .ok (Digits.clampInt64 n)
  | .number (.float x) => .ok (Decimal.Binary64.ofFloat x).toInt64
  | .string s =>
    match Digits.int64Of? (trim s) with
    | some n => .ok n
    | none => .error (.notInteger s format)
  | v => .error (.notNumeral v.text format)

/-- The first and the last second of the calendar that is supported. -/
def secondRange : Int × Int := (-8334601228800, 8210266876799)

/-- The instant of a count of seconds, if the calendar reaches it. -/
def secondsOf? (seconds : Int) : Option Int :=
  if secondRange.1 ≤ seconds ∧ seconds ≤ secondRange.2 then some seconds else none

namespace DateFormat

/-- The canonical text for a value from outside. -/
def toCanonical (format : DateFormat) (v : Json) : Except FormatError Json :=
  match format with
  | .passthrough _ => .ok v
  | .epochMillis => do
    let count ← epochCount format.name v
    match secondsOf? (count / 1000) with
    | some seconds => return .string (canonicalText seconds)
    | none => throw (.outOfRange count format.name)
  | .epochSecond => do
    let count ← epochCount format.name v
    match secondsOf? count with
    | some seconds => return .string (canonicalText seconds)
    | none => throw (.outOfRange count format.name)

/-- The value outside for a canonical text. -/
def ofCanonical (format : DateFormat) (text : String) : Except FormatError Json :=
  match format with
  | .passthrough _ => .ok (.string text)
  | .epochMillis =>
    match Timestamp.ofText? text with
    | some t => .ok (.ofInt t.toMillis)
    | none => .error (.notTimestamp text)
  | .epochSecond =>
    match Timestamp.ofText? text with
    | some t => .ok (.ofInt t.seconds)
    | none => .error (.notTimestamp text)

end DateFormat

end Quarry.Date
