/-
# Instants in statements

Statements compare dates as texts of one form, `YYYY-MM-DD HH:MM:SS` in universal time.

* `datetimeText?` — the form of a value: of a text that says a date, or of a number of days of the
  Julian period. Anything else has none.
* `asksForNow` — the texts for the present instant. It is no part of a statement or of its tables,
  so they have no form here.
-/
import Quarry.Date.Canonical
import Quarry.Request.Sort
import Quarry.Sql.Numeric
import Quarry.Text.Split

namespace Quarry.Sql

open Quarry.Date Quarry.Request Quarry.Result Quarry.Text

/-! ## Julian days -/

/-- The milliseconds of a day. -/
def millisOfDay : Int := 86400000

/-- The milliseconds from the start of the Julian period to the start of 1970. -/
def julianStart : Int := 210866760000000

/-- The last millisecond that is supported. -/
def julianEnd : Int := 464269060799999

/-- An instant in milliseconds of the Julian period. -/
def isJulian (millis : Int) : Bool := 0 ≤ millis && millis ≤ julianEnd

/-- The milliseconds at the start of a date. -/
def julianOfDate (d : CivilDate) : Int := d.dayNumber * millisOfDay + julianStart

/-- The date of an instant. -/
def dateOfJulian (millis : Int) : CivilDate :=
  .ofDayNumber ((millis - julianStart) / millisOfDay)

/-- The second in its day of an instant. -/
def secondOfJulian (millis : Int) : Nat :=
  ((millis - julianStart) % millisOfDay / 1000).toNat

/-! ## Texts -/

/-- The text of a date and a second of the day. -/
def dateAndTime (d : CivilDate) (second : Nat) : String :=
  String.ofList
    ((if d.year < 0 then ['-'] else []) ++ Digits.padded 4 d.year.natAbs ++
      '-' :: Digits.padded 2 d.month ++ '-' :: Digits.padded 2 d.day ++ ' ' :: timeChars second)

/-- Takes a number of two digits up to a greatest one. -/
def takeTwo (greatest : Nat) (cs : List Char) : Option (Nat × List Char) :=
  (takeNumber 2 0 cs).filter fun (n, _) => n ≤ greatest

/-- A time of day with its distance from universal time. -/
structure ZonedTime where
  second : Nat
  millis : Nat
  /-- How many minutes the time is ahead. -/
  ahead : Int
  deriving DecidableEq, Repr

/-- Takes a fraction of a second, which counts only with digits. -/
def takeSecondFraction (cs : List Char) : Nat × List Char :=
  match cs with
  | '.' :: rest =>
    let digits := rest.takeWhile Char.isDigit
    if digits.isEmpty then (0, cs) else (fractionMillis digits, rest.dropWhile Char.isDigit)
  | cs => (0, cs)

/-- Takes the seconds of a time, if it has them. -/
def takeSeconds : List Char → Option (Nat × Nat × List Char)
  | ':' :: cs => do
    let (second, cs) ← takeTwo 59 cs
    let (millis, cs) := takeSecondFraction cs
    some (second, millis, cs)
  | cs => some (0, 0, cs)

/-- Reads a zone, after which only blanks may follow. -/
def readZone? (cs : List Char) : Option Int :=
  let minutes (sign : Int) (cs : List Char) : Option (Int × List Char) := do
    let (hours, cs) ← takeTwo 14 cs
    let cs ← takeOneOf [':'] cs
    let (minutes, cs) ← takeTwo 59 cs
    some (sign * (hours * 60 + minutes), cs)
  let zone : Option (Int × List Char) := match cs.dropWhile isBlankChar with
    | [] => some (0, [])
    | 'Z' :: cs => some (0, cs)
    | 'z' :: cs => some (0, cs)
    | '+' :: cs => minutes 1 cs
    | '-' :: cs => minutes (-1) cs
    | _ => none
  zone.bind fun (ahead, rest) => if (rest.dropWhile isBlankChar).isEmpty then some ahead else none

/-- Reads a time of day up to the end of a text. -/
def readTime? (cs : List Char) : Option ZonedTime := do
  let (hour, cs) ← takeTwo 24 cs
  let cs ← takeOneOf [':'] cs
  let (minute, cs) ← takeTwo 59 cs
  let (second, millis, cs) ← takeSeconds cs
  let ahead ← readZone? cs
  some ⟨hour * 3600 + minute * 60 + second, millis, ahead⟩

/-- Takes a date, whose day may lie beyond the end of its month. -/
def takeCivil (cs : List Char) : Option (CivilDate × List Char) := do
  let (negative, cs) := match cs with
    | '-' :: cs => (true, cs)
    | cs => (false, cs)
  let (year, cs) ← takeNumber 4 0 cs
  let cs ← takeOneOf ['-'] cs
  let (month, cs) ← takeTwo 12 cs
  let cs ← takeOneOf ['-'] cs
  let (day, cs) ← takeTwo 31 cs
  if month = 0 ∨ day = 0 then none
  else some (⟨if negative then -(year : Int) else year, month, day⟩, cs)

/-- A date and time as text. A day beyond the end of its month counts on into the next one, and a
time of another zone is brought to universal time. -/
def zonedText? (d : CivilDate) (t : ZonedTime) : Option String :=
  let instant := julianOfDate d + t.second * 1000 + t.millis - t.ahead * 60000
  if d.year < -4713 ∨ !isJulian instant then none
  else if t.ahead ≠ 0 then some (dateAndTime (dateOfJulian instant) (secondOfJulian instant))
  else if 28 < d.day then some (dateAndTime (dateOfJulian instant) t.second)
  else some (dateAndTime d t.second)

/-- The date of a time that stands alone. -/
def defaultDate : CivilDate := ⟨2000, 1, 1⟩

/-- The instant of a number of days of the Julian period. -/
def dayText? (days : Float) : Option String :=
  if 0.0 ≤ days && days < 5373484.5 then
    let instant := (Decimal.Binary64.ofFloat (days * 86400000.0 + 0.5)).toInt64
    if isJulian instant then
      some (dateAndTime (dateOfJulian instant) (secondOfJulian instant))
    else none
  else none

/-- Reads a date, with a time of day or without, up to the end of a text. -/
def readDated? (cs : List Char) : Option (CivilDate × ZonedTime) := do
  let (d, rest) ← takeCivil cs
  let rest := rest.dropWhile fun c => isBlankChar c || c == 'T'
  if rest.isEmpty then some (d, ⟨0, 0, 0⟩)
  else
    let t ← readTime? rest
    some (d, t)

/-- The instant that a text says as a whole. -/
def wholeInstant? (s : String) : Option String :=
  match readDated? s.toList, readTime? s.toList with
  | some (d, t), _ => zonedText? d t
  | none, some t => zonedText? defaultDate t
  | none, none =>
    if (LeadingNumber.ofText s).complete then dayText? (leadingNumber s) else none

/-- The instant that a text says up to a character of code zero. -/
def textInstant? (s : String) : Option String :=
  wholeInstant? (String.ofList (untilZero s.toList))

/-- Whether a text asks for the present instant. -/
def asksForNow (s : String) : Bool :=
  ["now", "subsec", "subsecond"].contains (asciiLower (String.ofList (untilZero s.toList)))

/-- The instant that a value says. -/
def datetimeText? : Cell → Option String
  | .null => none
  | .int n => dayText? (Float.ofInt n)
  | .float x => dayText? x
  | .text s => textInstant? s

end Quarry.Sql
