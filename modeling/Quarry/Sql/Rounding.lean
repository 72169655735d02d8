/-
# Reading numerals

Statements do not always read a numeral as the float nearest to it: they keep its first digits as an
integer of sixty-four bits, scale it by powers of ten that are rounded to sixty-four bits themselves,
and round to a float at the end.

* `keptDigits` — the digits that are kept, and the power of ten of the last one.
* `balanced` — the same with as little of the power of ten as possible.
* `Extended` — numbers of sixty-four bits. `Extended.mul` — their rounded product.
* `Numeral.approximate` — the float that a numeral is read as.
-/
import Quarry.Decimal.Shortest
import Quarry.Json.Number

namespace Quarry

namespace Sql

open Float.Model Float.Model.UnpackedFloat
open Quarry.Decimal Quarry.Json Quarry.Text

/-! ## Digits -/

/-- An integer below this one has room for one more digit. -/
def digitRoom : Nat := 1844674407370955160

/-- Appends digits to an integer as long as it has room for them; those left over are counted. -/
def gatherDigits : Nat → List Char → Nat × Nat
  | n, [] => (n, 0)
  | n, c :: cs =>
    if n < digitRoom then gatherDigits (n * 10 + (Digits.digit? c).getD 0) cs
    else (n, cs.length + 1)

/-- The exponent that some digits write. One of five digits is out of all bounds. -/
def exponentOf (digits : List Char) : Nat :=
  digits.foldl (fun e c => if e < 10000 then e * 10 + (Digits.digit? c).getD 0 else 10000) 0

/-- The digits of a numeral that are kept. -/
def keptDigits (n : Numeral) : Decimal :=
  let (whole, wholeLeft) := gatherDigits 0 n.whole
  let (digits, fractionLeft) := gatherDigits whole n.fraction
  let e : Int := exponentOf n.exponent
  let places : Nat := n.fraction.length - fractionLeft
  ⟨digits, (if n.exponentNegative then -e else e) + wholeLeft - places⟩

/-- An integer below this one still fits into sixty-four bits with a zero appended. -/
def zeroRoom : Nat := 1844674407370955161

/-- Appends zeros to an integer, up to a number of them, as long as it has room. -/
def appendZeros : Nat → Nat → Decimal
  | 0, n => ⟨n, 0⟩
  | e + 1, n => if n < zeroRoom then appendZeros e (n * 10) else ⟨n, e + 1⟩

/-- Takes zeros off the end of an integer, up to a number of them. -/
def dropZeros : Nat → Nat → Decimal
  | 0, n => ⟨n, 0⟩
  | e + 1, n => if n % 10 = 0 then dropZeros e (n / 10) else ⟨n, .negSucc e⟩

/-- The same number with as little of the power of ten as possible. -/
def balanced (d : Decimal) : Decimal :=
  match d.exponent with
  | .ofNat e => appendZeros e d.digits
  | .negSucc e => dropZeros (e + 1) d.digits

/-! ## Sixty-four bits -/

/-- The number `significand * 2 ^ exponent`. -/
structure Extended where
  significand : Nat
  exponent : Int
  deriving DecidableEq, Repr

namespace Extended

/-- The nearest number of sixty-four bits; of two equally near ones, the even one. -/
def round (x : Extended) : Extended :=
  let excess := x.significand.log2 + 1 - 64
  let unit := 1 <<< excess
  let kept := x.significand >>> excess
  let lost := x.significand % unit
  let up := unit < 2 * lost || (2 * lost == unit && kept % 2 == 1)
  ⟨if up then kept + 1 else kept, x.exponent + excess⟩

/-- The rounded product. -/
def mul (x y : Extended) : Extended :=
  round ⟨x.significand * y.significand, x.exponent + y.exponent⟩

/-- The powers of ten by which numbers are scaled: the hundredth, the tenth and the first. -/
structure Scale where
  hundred : Extended
  ten : Extended
  one : Extended

/-- The powers of ten for large numbers, each the nearest one of sixty-four bits. -/
def growing : Scale where
  hundred := ⟨10542197943230523224, 269⟩
  ten := ⟨10000000000, 0⟩
  one := ⟨10, 0⟩

/-- The powers of ten for small numbers, each the nearest one of sixty-four bits. -/
def shrinking : Scale where
  hundred := ⟨16139061738043178685, -396⟩
  ten := ⟨15845632502852867519, -97⟩
  one := ⟨14757395258967641293, -67⟩

/-- A number times a power of ten, in steps of a hundred, of ten and of one. -/
def scaled (s : Scale) (e : Nat) (x : Extended) : Extended :=
  Nat.repeat (mul s.one) (e % 10) <| Nat.repeat (mul s.ten) (e % 100 / 10) <|
    Nat.repeat (mul s.hundred) (e / 100) x

/-- The number that a decimal is scaled to. -/
def ofDecimal (d : Decimal) : Extended :=
  match d.exponent with
  | .ofNat e => scaled growing e ⟨d.digits, 0⟩
  | .negSucc e => scaled shrinking (e + 1) ⟨d.digits, 0⟩

/-- The greatest finite float. -/
def greatestFinite : Nat := 9007199254740991 <<< 971

/-- The float nearest to a number with a sign. What is above all finite floats is infinite, however
near it is to the greatest one. -/
def toUnpacked (sign : Sign) (x : Extended) : UnpackedFloat :=
  if greatestFinite < Binary64.floorAbs x.significand x.exponent then .infinity sign
  else UnpackedFloat.round .binary64 sign x.significand x.exponent

end Extended

end Sql

/-! ## Numerals -/

open Float.Model Float.Model.UnpackedFloat Quarry.Sql

/-- The float that a numeral is read as in statements. -/
def Json.Numeral.approximate (n : Numeral) : Float :=
  let sign : Sign := if n.negative then .negative else .positive
  let d := balanced (keptDigits n)
  .ofModel <| .pack <|
    if d.digits = 0 then .zero sign else (Extended.ofDecimal d).toUnpacked sign

end Quarry
