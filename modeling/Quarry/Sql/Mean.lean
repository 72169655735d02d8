/-
# Means and maxima

* `mean` — the mean of some values. Integers are summed exactly as long as the sum fits into 64
  bits; after that, and with other numbers, a rounded sum and what it has lost are kept.
* `greatest` — the greatest of some values, the first of equals.

Missing values do not count in either.
-/
import Quarry.Sql.Numeric
import Quarry.Sql.Order

namespace Quarry.Sql

open Quarry.Decimal Quarry.Result Quarry.Text

/-! ## Sums -/

/-- A sum of numbers. -/
inductive RunningSum where
  | exact (n : Int)
  /-- A rounded sum, and what was lost in rounding. -/
  | rounded (sum lost : Float)

namespace RunningSum

/-- Adds a float to a rounded sum. -/
def addFloat (sum lost x : Float) : RunningSum :=
  let total := sum + x
  if x.abs < sum.abs then .rounded total (lost + ((sum - total) + x))
  else .rounded total (lost + ((x - total) + sum))

/-- The least size of integers that are added in two parts. -/
def largeSize : Nat := 4503599627370496

/-- The part of a large integer that is added last. -/
def smallPart (n : Int) : Int := n.tmod 16384

/-- The float of an integer. -/
def floatOf (n : Int) : Float := Float.ofInt n

/-- Adds a float to a sum. -/
def add (s : RunningSum) (x : Float) : RunningSum :=
  match s with
  | .rounded sum lost => addFloat sum lost x
  | .exact n =>
    if largeSize ≤ n.natAbs then addFloat (floatOf (n - smallPart n)) (floatOf (smallPart n)) x
    else addFloat (floatOf n) 0.0 x

/-- Adds an integer to a rounded sum. -/
def addRounded (s : RunningSum) (n : Int) : RunningSum :=
  if largeSize ≤ n.natAbs then (s.add (floatOf (n - smallPart n))).add (floatOf (smallPart n))
  else s.add (floatOf n)

/-- Adds an integer to a sum. -/
def addInt (s : RunningSum) (n : Int) : RunningSum :=
  match s with
  | .exact m => if Digits.fitsInt64 (m + n) then .exact (m + n) else s.addRounded n
  | .rounded .. => s.addRounded n

/-- The value of a sum. -/
def value : RunningSum → Float
  | .exact n => floatOf n
  | .rounded sum lost => if (Binary64.ofFloat sum).isFinite then sum + lost else sum

/-- Adds a value that is not missing to a sum. A text counts as the number that it writes or starts
with. -/
def addCell (s : RunningSum) : Cell → RunningSum
  | .null => s
  | .int n => s.addInt n
  | .float x => s.add x
  | .text t =>
    match numberOfText? t with
    | some (.int n) => s.addInt n
    | some (.float x) => s.add x
    | _ => s.add (leadingNumber t)

end RunningSum

/-! ## Means and maxima -/

/-- Whether a value is missing. -/
def isMissing : Cell → Bool
  | .null => true
  | _ => false

/-- A float as a value; an undefined one is a missing value. -/
def floatCell (x : Float) : Cell := if x.isNaN then .null else .float x

/-- The mean of some values. -/
def mean (cells : List Cell) : Cell :=
  let present := cells.filter fun c => !isMissing c
  if present.isEmpty then .null
  else
    let sum := present.foldl RunningSum.addCell (.exact 0)
    floatCell (sum.value / Float.ofNat present.length)

/-- The greater of two values, the first of equals. -/
def greater (a b : Cell) : Cell :=
  if SortKey.compare (sortKey a) (sortKey b) = .lt then b else a

/-- The greatest of some values. -/
def greatest (cells : List Cell) : Cell :=
  (cells.filter fun c => !isMissing c).foldl greater .null

end Quarry.Sql
