/-
# Binary floating point numbers

A `Float` taken apart, so that exact arithmetic can be done on it.

* `Binary64` — not a number, an infinity, or a sign with `significand * 2 ^ exponent`.
* `Binary64.ofFloat` — the parts of a float.
* `Binary64.truncate` — the integer part.
* `Binary64.toInt64` — the integer part, moved into the range of 64-bit signed integers.
* `Binary64.compareInt` — the order of a finite float and an integer, exactly.
-/
import Quarry.Text.Digits

namespace Quarry.Decimal

/-- The parts of a floating point number. -/
inductive Binary64 where
  /-- Not a number. -/
  | nan
  /-- An infinity. -/
  | infinite (negative : Bool)
  /-- The number `significand * 2 ^ exponent`, negated if `negative`; zero has either sign. -/
  | finite (negative : Bool) (significand : Nat) (exponent : Int)
  deriving DecidableEq, Repr

namespace Binary64

/-- The least significand of a normal number. -/
def hidden : Nat := 4503599627370496

/-- The exponent of the smallest numbers. -/
def leastExponent : Int := -1074

/-- The parts of a float: one sign bit, eleven exponent bits and fifty-two fraction bits. -/
def ofFloat (x : Float) : Binary64 :=
  let bits := x.toBits.toNat
  let negative := bits >>> 63 % 2 == 1
  let field : Nat := bits >>> 52 % 2048
  let fraction : Nat := bits % hidden
  if field = 2047 then
    if fraction = 0 then .infinite negative else .nan
  else if field = 0 then .finite negative fraction leastExponent
  else .finite negative (hidden + fraction) ((field : Int) - 1 + leastExponent)

/-- Whether the number is neither infinite nor undefined. -/
def isFinite : Binary64 → Bool
  | .finite .. => true
  | _ => false

/-- The greatest integer not above `significand * 2 ^ exponent`. -/
def floorAbs (significand : Nat) : Int → Nat
  | .ofNat e => significand <<< e
  | .negSucc e => significand >>> (e + 1)

/-- A sign put before a natural number. -/
def signed (negative : Bool) (n : Nat) : Int := if negative then -(n : Int) else n

/-- The integer part of a finite number; `none` otherwise. -/
def truncate : Binary64 → Option Int
  | .finite negative m e => some (signed negative (floorAbs m e))
  | _ => none

/-- How a number stands to an integer; `none` if the number is undefined. -/
def compareInt (x : Binary64) (n : Int) : Option Ordering :=
  match x with
  | .nan => none
  | .infinite negative => some (if negative then .lt else .gt)
  | .finite negative m (.ofNat e) => some (compare (signed negative (m <<< e)) n)
  | .finite negative m (.negSucc e) => some (compare (signed negative m) (n <<< (e + 1)))

/-- The 64-bit signed integer nearest to the integer part; zero if the number is undefined. -/
def toInt64 : Binary64 → Int
  | .nan => 0
  | .infinite negative => if negative then Text.Digits.int64Min else Text.Digits.int64Max
  | .finite negative m e => Text.Digits.clampInt64 (signed negative (floorAbs m e))

end Binary64

end Quarry.Decimal
