/-
# Decimal integers

Reading and writing integers in base ten.

* `ofNat`, `ofInt` — the decimal text of an integer: no sign unless negative, no leading zero.
* `natOf?`, `intOf?` — reading: ASCII digits only, leading zeros allowed, and for `intOf?` one
  optional sign.
* `int64Of?` — reading a 64-bit signed integer; anything out of range is refused.
-/
namespace Quarry.Text.Digits

/-! ## Single digits -/

/-- The value of an ASCII decimal digit. -/
def digit? (c : Char) : Option Nat :=
  if c.isDigit then some (c.toNat - '0'.toNat) else none

/-- The value of an ASCII hexadecimal digit of either case. -/
def hexDigit? (c : Char) : Option Nat :=
  if c.isDigit then some (c.toNat - '0'.toNat)
  else if 'a' ≤ c ∧ c ≤ 'f' then some (c.toNat - 'a'.toNat + 10)
  else if 'A' ≤ c ∧ c ≤ 'F' then some (c.toNat - 'A'.toNat + 10)
  else none

/-! ## Reading -/

/-- The value of a run of digits appended to the digits of `start`. -/
def natFrom? : Nat → List Char → Option Nat
  | start, [] => some start
  | start, c :: cs => (digit? c).bind fun d => natFrom? (start * 10 + d) cs

/-- The value of a non-empty run of digits. -/
def natOf? : List Char → Option Nat
  | [] => none
  | cs => natFrom? 0 cs

/-- The value of a non-empty run of digits after at most one sign. -/
def intOf? : List Char → Option Int
  | '-' :: cs => (natOf? cs).map fun n => -(n : Int)
  | '+' :: cs => (natOf? cs).map Int.ofNat
  | cs => (natOf? cs).map Int.ofNat

/-- The least 64-bit signed integer. -/
def int64Min : Int := -9223372036854775808

/-- The greatest 64-bit signed integer. -/
def int64Max : Int := 9223372036854775807

/-- Whether an integer is a 64-bit signed one. -/
def fitsInt64 (n : Int) : Bool := int64Min ≤ n && n ≤ int64Max

/-- The nearest 64-bit signed integer. -/
def clampInt64 (n : Int) : Int := max int64Min (min n int64Max)

/-- The 64-bit signed integer a text writes, if it writes one. -/
def int64Of? (s : String) : Option Int :=
  (intOf? s.toList).filter fitsInt64

/-! ## Writing -/

/-- The decimal digits of a natural number, most significant first. -/
def chars (n : Nat) : List Char := Nat.toDigits 10 n

/-- The decimal text of a natural number. -/
def ofNat (n : Nat) : String := String.ofList (chars n)

/-- The decimal text of an integer. -/
def ofInt : Int → String
  | .ofNat n => ofNat n
  | .negSucc n => "-" ++ ofNat (n + 1)

/-- The decimal digits of a number, filled up with zeros on the left to a width. -/
def padded (width n : Nat) : List Char :=
  let ds := chars n
  List.replicate (width - ds.length) '0' ++ ds

/-- The lower-case hexadecimal digits of a number, most significant first. -/
def hexChars (n : Nat) : List Char := Nat.toDigits 16 n

end Quarry.Text.Digits
