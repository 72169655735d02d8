/-
# Shortest decimals

The decimal with the fewest digits among those that read back as a given floating point number,
and among these the one nearest to it.

* `Decimal` — `digits * 10 ^ exponent`.
* `shortest` — the shortest decimal of `m * 2 ^ q`. The numbers that read back as `m * 2 ^ q` form
  an interval around it. A grid of decimals of one length that has a point in the interval has one
  of the two neighbours of `m * 2 ^ q` there, so it is enough to try these, grid by grid.
-/
import Quarry.Decimal.Binary64

namespace Quarry

/-- The number `digits * 10 ^ exponent`. -/
structure Decimal where
  /-- The digits, as one number. -/
  digits : Nat
  /-- The power of ten of the last digit. -/
  exponent : Int
  deriving DecidableEq, Repr

namespace Decimal

/-! ## The interval -/

/-- The numbers that read back as one floating point number: those between `low` and `high`,
where `value` is the number itself, all three in units of `num / den`. -/
structure Interval where
  low : Nat
  value : Nat
  high : Nat
  /-- Whether the two ends belong to the interval. -/
  closed : Bool
  num : Nat
  den : Nat

/-- The interval of `m * 2 ^ q`, in quarters of a unit of the last binary place. Below a power of
two the next number is only half as far away. -/
def Interval.of (m : Nat) (q : Int) : Interval where
  low := if m = Binary64.hidden ∧ q ≠ Binary64.leastExponent then 4 * m - 1 else 4 * m - 2
  value := 4 * m
  high := 4 * m + 2
  closed := m % 2 == 0
  num := 1 <<< (q - 2).toNat
  den := 1 <<< (2 - q).toNat

/-- The interval in units of `10 ^ e`. -/
def Interval.scaled (i : Interval) (e : Int) : Interval :=
  { i with num := i.num * Nat.pow 10 (-e).toNat, den := i.den * Nat.pow 10 e.toNat }

/-- Whether the number `d` of units lies in the interval. -/
def Interval.contains (i : Interval) (d : Nat) : Bool :=
  if i.closed then i.low * i.num ≤ d * i.den && d * i.den ≤ i.high * i.num
  else i.low * i.num < d * i.den && d * i.den < i.high * i.num

/-! ## One grid -/

/-- Of the two neighbours of the value on the grid, the one that lies in the interval; of two, the
nearer one, and of two equally near the even one. -/
def Interval.pick (i : Interval) : Option Nat :=
  let below := i.value * i.num / i.den
  let above := below + 1
  match i.contains below, i.contains above with
  | true, false => some below
  | false, true => some above
  | false, false => none
  | true, true =>
    let toBelow := i.value * i.num - below * i.den
    let toAbove := above * i.den - i.value * i.num
    if toBelow < toAbove then some below
    else if toAbove < toBelow then some above
    else if below % 2 = 0 then some below else some above

/-- The number of decimal digits. -/
def digitCount (n : Nat) : Nat := (Nat.toDigits 10 n).length

/-- The power of ten of the first digit of a positive `num / den`. -/
def leadingPower (num den : Nat) : Int :=
  if den ≤ num then (digitCount (num / den) : Int) - 1
  else
    let n := digitCount (den / num)
    if den ≤ num * Nat.pow 10 (n - 1) then -((n : Int) - 1) else -(n : Int)

/-! ## The search -/

/-- Moves the zeros at the end of the digits into the exponent. The first argument bounds their
number. -/
def trimZeros : Nat → Decimal → Decimal
  | 0, d => d
  | fuel + 1, d =>
    if d.digits ≠ 0 ∧ d.digits % 10 = 0 then trimZeros fuel ⟨d.digits / 10, d.exponent + 1⟩ else d

/-- The shortest decimal that reads back as the positive number `m * 2 ^ q`. No number needs more
than seventeen digits. -/
def shortest (m : Nat) (q : Int) : Decimal :=
  let i := Interval.of m q
  let k := leadingPower (i.value * i.num) i.den
  let found := (List.range 17).findSome? fun (n : Nat) =>
    let e := k - n
    ((i.scaled e).pick).map fun d => (⟨d, e⟩ : Decimal)
  trimZeros 20 (found.getD ⟨0, 0⟩)

/-- The decimal digits, most significant first. -/
def chars (d : Decimal) : List Char := Text.Digits.chars d.digits

/-- The power of ten of the first digit. -/
def leadingExponent (d : Decimal) : Int := d.exponent + d.chars.length - 1

end Decimal

end Quarry
