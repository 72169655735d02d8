/-
# Bounds of a range

* `Bound` — a number as written, and whether it was given as a string.
* `Bound.ofText?` — a bound from a string: a JSON number, with blanks around it.
* `Bound.toJson` — the value a bound stands for. A whole number is one however it was given; a
  string that writes any other number stays a string.
-/
import Quarry.Json.Decode
import Quarry.Text.Blank

namespace Quarry.Request

open Quarry.Json Quarry.Text

/-- The number that a text writes, if it writes nothing else. -/
def numberOf? (s : String) : Option Number :=
  match scan (Utf8.encode s) with
  | ⟨.number n, false⟩ => some n
  | _ => none

/-- A bound of a range. -/
structure Bound where
  /-- The number as written. -/
  numeral : String
  /-- Whether it was given as a string. -/
  quoted : Bool
  deriving DecidableEq, Repr

namespace Bound

/-- A bound from text, without the blanks around it. -/
def parse? (text : String) (quoted : Bool) : Option Bound :=
  let numeral := trim text
  (numberOf? numeral).map fun _ => ⟨numeral, quoted⟩

/-- A bound given as a string. -/
def ofText? (text : String) : Option Bound := parse? text true

/-- A bound given as an integer. -/
def ofInt (n : Int) : Bound := ⟨Digits.ofInt n, false⟩

/-- The value of a bound. -/
def toJson (b : Bound) : Json :=
  match Digits.int64Of? b.numeral with
  | some n => .ofInt n
  | none =>
    if b.quoted then .string b.numeral
    else match numberOf? b.numeral with
      | some n => .number n
      | none => .string b.numeral

/-- What is expected where a bound is read. -/
def expected : String := "a number or a numeral string"

/-- Reads a bound from a number, or from a string that writes one. -/
def decode : Decoder Bound
  | .number (.int n) => .ok (ofInt n)
  | .number (.float x) =>
    match parse? (Decimal.plain.render x) false with
    | some b => .ok b
    | none => .error (.invalidValue (.number (.float x)) expected)
  | .string s =>
    match ofText? s with
    | some b => .ok b
    | none => .error (.invalidValue (.string s) expected)
  | o => .error (o.mismatch expected)

end Bound

end Quarry.Request
