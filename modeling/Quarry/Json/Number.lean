/-
# JSON numbers

* `Number` — an integer of at most 64 bits, or a floating point number.
* `Number.text` — a number as it stands in JSON text.
* `Number.plainText` — a number as plain decimal text.
* `Numeral` — a number as written: sign, digits, fraction and exponent.
* `Numeral.value` — the number a numeral stands for. An integer is exact; anything else is the
  leading digits that fit into 64 bits, rounded to a float and then scaled once by a power of ten.
-/
import Quarry.Decimal.Layout
import Quarry.Json.Malformed

namespace Quarry.Json

open Quarry.Decimal Quarry.Text

/-! ## Numbers -/

/-- A JSON number. -/
inductive Number where
  /-- An integer from `-2 ^ 63` to `2 ^ 64 - 1`. -/
  | int (n : Int)
  /-- A floating point number. -/
  | float (x : Float)
  deriving DecidableEq

/-- Floating point numbers in JSON keep a fraction; powers of ten below `-5` and above `15` are
written out as exponents, with a sign. -/
def numberLayout : Layout where
  positional := some (-5, 15)
  wholeMark := ['.', '0']
  positiveExponentMark := ['e', '+']
  negativeExponentMark := ['e', '-']
  nan := ['n', 'u', 'l', 'l']
  infinity := ['n', 'u', 'l', 'l']

/-- A floating point number in JSON text. -/
def floatText (x : Float) : String := numberLayout.render x

/-- A number in JSON text. -/
def Number.text : Number → String
  | .int n => Digits.ofInt n
  | .float x => floatText x

/-- A number as plain decimal text. -/
def Number.plainText : Number → String
  | .int n => Digits.ofInt n
  | .float x => plain.render x

/-! ## Numerals -/

/-- A number as it is written. -/
structure Numeral where
  negative : Bool
  /-- The digits before the point. -/
  whole : List Char
  /-- The digits after the point; none when there is no point. -/
  fraction : List Char
  /-- The exponent mark and its sign; empty when there is no exponent. -/
  mark : List Char
  /-- The digits of the exponent. -/
  exponent : List Char
  deriving DecidableEq, Repr

namespace Numeral

/-- The characters of a numeral. -/
def chars (n : Numeral) : List Char :=
  (if n.negative then ['-'] else []) ++ n.whole ++
    (if n.fraction.isEmpty then [] else '.' :: n.fraction) ++ n.mark ++ n.exponent

/-- The text of a numeral. -/
def text (n : Numeral) : String := String.ofList n.chars

/-- Whether the numeral has neither fraction nor exponent. -/
def isWhole (n : Numeral) : Bool := n.fraction.isEmpty && n.mark.isEmpty

/-- Whether the exponent is written with a minus sign. -/
def exponentNegative (n : Numeral) : Bool := n.mark.contains '-'

/-- Appends digits to a number as long as it does not exceed a limit; what is left over follows. -/
def accumulate (limit : Nat) : Nat → List Char → Nat × List Char
  | n, [] => (n, [])
  | n, c :: cs =>
    let next := n * 10 + (Digits.digit? c).getD 0
    if next ≤ limit then accumulate limit next cs else (n, c :: cs)

/-- The greatest unsigned integer of 64 bits, which bounds a significand. -/
def significandLimit : Nat := 18446744073709551615

/-- The greatest exponent that is read digit by digit. -/
def exponentLimit : Nat := 2147483647

/-- The greatest power of ten that a float holds. -/
def greatestPower : Nat := 308

/-- A power of ten as a float. -/
def powerOfTen (e : Nat) : Float := Float.ofScientific 1 false e

/-- Divides by ten to a large power, one step of the greatest power of ten at a time. -/
def shrink : Nat → Float → Int → Float
  | 0, f, _ => f
  | fuel + 1, f, e =>
    if -(greatestPower : Int) ≤ e then f / powerOfTen e.natAbs
    else if f == 0 then f
    else shrink fuel (f / powerOfTen greatestPower) (e + greatestPower)

/-- A float times a power of ten, with one rounding for powers a float can hold. After three
divisions any significand has become zero. -/
def scale (f : Float) (e : Int) : Except Malformed Float :=
  if e < 0 then .ok (shrink 4 f e)
  else if e ≤ greatestPower then
    let scaled := f * powerOfTen e.natAbs
    if scaled.isInf then .error .numberOutOfRange else .ok scaled
  else if f == 0 then .ok f
  else .error .numberOutOfRange

/-- A significand, a power of ten and a sign as a float. -/
def assemble (negative : Bool) (significand : Nat) (e : Int) : Except Malformed Float :=
  (scale significand.toUInt64.toFloat e).map fun x => if negative then -x else x

/-- The integer of a sign and a significand, or the float beside it where the integer has no
64-bit form; zero has no negative integer form either. -/
def integer (negative : Bool) (significand : Nat) : Number :=
  if !negative then .int significand
  else if 0 < significand ∧ significand ≤ 9223372036854775808 then .int (-(significand : Int))
  else .float (-significand.toUInt64.toFloat)

/-- The number that a numeral stands for. -/
def value (n : Numeral) : Except Malformed Number :=
  let (whole, wholeLeft) := accumulate significandLimit 0 n.whole
  if n.isWhole && wholeLeft.isEmpty then .ok (integer n.negative whole)
  else
    let (significand, fractionLeft) := accumulate significandLimit whole n.fraction
    let shift : Int := wholeLeft.length - (n.fraction.length - fractionLeft.length : Nat)
    let (e, exponentLeft) := accumulate exponentLimit 0 n.exponent
    if !exponentLeft.isEmpty then
      if significand ≠ 0 ∧ !n.exponentNegative then .error .numberOutOfRange
      else .ok (.float (if n.negative then -0.0 else 0.0))
    else
      let power : Int := if n.exponentNegative then shift - e else shift + e
      (assemble n.negative significand power).map .float

/-- The float nearest to a numeral. -/
def nearest (n : Numeral) : Float :=
  let digits := (Digits.natFrom? 0 (n.whole ++ n.fraction)).getD 0
  let e := (Digits.natFrom? 0 n.exponent).getD 0
  let power : Int := (if n.exponentNegative then -(e : Int) else e) - n.fraction.length
  let x :=
    if digits = 0 then 0.0
    else if power < -100000 then 0.0
    else if 100000 < power then Float.ofScientific 1 false 400
    else Float.ofScientific digits (power < 0) power.natAbs
  if n.negative then -x else x

end Numeral

end Quarry.Json
