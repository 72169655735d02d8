/-
# Layouts of decimal text

How a floating point number is written once its digits are chosen.

* `Layout` — the decisions of one format: where positional notation ends, whether a whole number
  keeps a fraction, how the exponent is marked, and the texts of the special values.
* `Layout.render` — the text of a float.
-/
import Quarry.Decimal.Shortest

namespace Quarry.Decimal

/-- The decisions of one format of floating point text. -/
structure Layout where
  /-- The least and greatest power of ten of the first digit that is written positionally; `none`
  when every number is. -/
  positional : Option (Int × Int)
  /-- What a whole number is followed by. -/
  wholeMark : List Char
  /-- What stands between the digits and an exponent that is not negative. -/
  positiveExponentMark : List Char
  /-- What stands between the digits and a negative exponent. -/
  negativeExponentMark : List Char
  /-- The text of the undefined number. -/
  nan : List Char
  /-- The text of the positive infinity. -/
  infinity : List Char

namespace Layout

/-- The number written with a decimal point only where it has a fraction. -/
def positionalChars (l : Layout) (d : Decimal) : List Char :=
  let ds := d.chars
  match d.exponent with
  | .ofNat e => ds ++ List.replicate e '0' ++ l.wholeMark
  | .negSucc e =>
    let places := e + 1
    if places < ds.length then
      ds.take (ds.length - places) ++ '.' :: ds.drop (ds.length - places)
    else '0' :: '.' :: List.replicate (places - ds.length) '0' ++ ds

/-- The number written with one digit before the point, and a power of ten. -/
def scientificChars (l : Layout) (d : Decimal) : List Char :=
  let ds := d.chars
  let fraction := ds.drop 1
  let k := d.leadingExponent
  let mark := if 0 ≤ k then l.positiveExponentMark else l.negativeExponentMark
  ds.take 1 ++ (if fraction.isEmpty then [] else '.' :: fraction) ++ mark ++
    Text.Digits.chars k.natAbs

/-- The text of a positive decimal. -/
def decimalChars (l : Layout) (d : Decimal) : List Char :=
  let k := d.leadingExponent
  match l.positional with
  | none => l.positionalChars d
  | some (low, high) =>
    if low ≤ k ∧ k ≤ high then l.positionalChars d else l.scientificChars d

/-- The text of the parts of a float. -/
def chars (l : Layout) : Binary64 → List Char
  | .nan => l.nan
  | .infinite negative => if negative then '-' :: l.infinity else l.infinity
  | .finite negative m e =>
    let text := if m = 0 then '0' :: l.wholeMark else l.decimalChars (shortest m e)
    if negative then '-' :: text else text

/-- The text of a float. -/
def render (l : Layout) (x : Float) : String := String.ofList (l.chars (Binary64.ofFloat x))

end Layout

/-- Plain decimal text: no exponent however large the number, and no fraction for a whole one. -/
def plain : Layout where
  positional := none
  wholeMark := []
  positiveExponentMark := ['e']
  negativeExponentMark := ['e', '-']
  nan := ['N', 'a', 'N']
  infinity := ['i', 'n', 'f']

end Quarry.Decimal
