/-
# Canonical timestamps

Instants as text: `2022-11-11T13:31:29Z`, in universal time and whole seconds.

* `canonicalText` — the text of an instant given in seconds since 1970.
* `Timestamp` — what such a text says. `Timestamp.ofText?` — reading it. Reading also takes other
  offsets, fractions of a second and the sixtieth second.
-/
import Quarry.Date.Calendar
import Quarry.Text.Digits

namespace Quarry.Date

open Quarry.Text

/-! ## Writing -/

/-- The seconds of a day. -/
def secondsOfDay : Int := 86400

/-- The text of a year: four digits, or a sign and at least four digits outside those. -/
def yearChars (year : Int) : List Char :=
  let digits := Digits.padded 4 year.natAbs
  if 0 ≤ year ∧ year ≤ 9999 then digits
  else if 0 ≤ year then '+' :: digits
  else '-' :: digits

/-- The text of a date. -/
def dateChars (d : CivilDate) : List Char :=
  yearChars d.year ++ '-' :: Digits.padded 2 d.month ++ '-' :: Digits.padded 2 d.day

/-- The text of a time of day in seconds. -/
def timeChars (seconds : Nat) : List Char :=
  Digits.padded 2 (seconds / 3600) ++ ':' :: Digits.padded 2 (seconds / 60 % 60) ++
    ':' :: Digits.padded 2 (seconds % 60)

/-- The canonical text of an instant. -/
def canonicalText (seconds : Int) : String :=
  String.ofList (dateChars (.ofDayNumber (seconds / secondsOfDay)) ++
    'T' :: timeChars (seconds % secondsOfDay).toNat ++ ['Z'])

/-! ## Reading -/

/-- An instant with a part of a second. -/
structure Timestamp where
  /-- Whole seconds since 1970. -/
  seconds : Int
  /-- Whole milliseconds after them; a sixtieth second makes them more than a thousand. -/
  millis : Nat
  deriving DecidableEq, Repr

/-- The milliseconds since 1970. -/
def Timestamp.toMillis (t : Timestamp) : Int := t.seconds * 1000 + t.millis

/-- Takes a number of a given count of digits. -/
def takeNumber : (count : Nat) → (value : Nat) → List Char → Option (Nat × List Char)
  | 0, value, cs => some (value, cs)
  | _ + 1, _, [] => none
  | count + 1, value, c :: cs =>
    (Digits.digit? c).bind fun d => takeNumber count (value * 10 + d) cs

/-- Takes one of some characters. -/
def takeOneOf (allowed : List Char) : List Char → Option (List Char)
  | c :: cs => if allowed.contains c then some cs else none
  | [] => none

/-- Takes a date that the calendar has. -/
def takeDate (cs : List Char) : Option (CivilDate × List Char) := do
  let (year, cs) ← takeNumber 4 0 cs
  let cs ← takeOneOf ['-'] cs
  let (month, cs) ← takeNumber 2 0 cs
  let cs ← takeOneOf ['-'] cs
  let (day, cs) ← takeNumber 2 0 cs
  let date : CivilDate := ⟨year, month, day⟩
  if date.isValid then some (date, cs) else none

/-- A time of day: the second in the day, and the milliseconds that a sixtieth second adds. -/
structure TimeOfDay where
  seconds : Nat
  millis : Nat
  deriving DecidableEq, Repr

/-- Takes a time of day. -/
def takeTime (cs : List Char) : Option (TimeOfDay × List Char) := do
  let (hour, cs) ← takeNumber 2 0 cs
  let cs ← takeOneOf [':'] cs
  let (minute, cs) ← takeNumber 2 0 cs
  let cs ← takeOneOf [':'] cs
  let (second, cs) ← takeNumber 2 0 cs
  if hour ≤ 23 ∧ minute ≤ 59 ∧ second ≤ 60 then
    some (⟨hour * 3600 + minute * 60 + min second 59, if second = 60 then 1000 else 0⟩, cs)
  else none

/-- The milliseconds of the digits of a fraction. -/
def fractionMillis (digits : List Char) : Nat :=
  ((digits ++ ['0', '0', '0']).take 3).foldl (fun n c => n * 10 + (Digits.digit? c).getD 0) 0

/-- Takes a fraction of a second, if there is one. -/
def takeFraction : List Char → Option (Nat × List Char)
  | '.' :: cs =>
    let digits := cs.takeWhile Char.isDigit
    if digits.isEmpty then none else some (fractionMillis digits, cs.dropWhile Char.isDigit)
  | cs => some (0, cs)

/-- The minus signs that an offset may have. -/
def minusSigns : List Char := ['-', '−']

/-- Takes the offset of a local time, in seconds. -/
def takeOffset : List Char → Option (Int × List Char)
  | [] => none
  | c :: cs =>
    if c = 'Z' ∨ c = 'z' then some (0, cs)
    else if c = '+' ∨ minusSigns.contains c then do
      let (hours, cs) ← takeNumber 2 0 cs
      let cs ← takeOneOf [':'] cs
      let (minutes, cs) ← takeNumber 2 0 cs
      if hours ≤ 23 ∧ minutes ≤ 59 then
        let offset : Int := hours * 3600 + minutes * 60
        some (if c = '+' then offset else -offset, cs)
      else none
    else none

/-- The instant that a text says, if it says one and nothing else. -/
def Timestamp.ofText? (s : String) : Option Timestamp := do
  let (date, cs) ← takeDate s.toList
  let cs ← takeOneOf ['T', 't', ' '] cs
  let (time, cs) ← takeTime cs
  let (millis, cs) ← takeFraction cs
  let (offset, cs) ← takeOffset cs
  if cs.isEmpty then
    some ⟨date.dayNumber * secondsOfDay + time.seconds - offset, time.millis + millis⟩
  else none

end Quarry.Date
