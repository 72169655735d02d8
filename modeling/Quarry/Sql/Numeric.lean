/-
# Texts as numbers

* `numberOfText?` — the number that a text writes, blanks around it aside.
* `leadingNumber` — the number that a text starts with, zero if there is none.
-/
import Quarry.Result.Cell
import Quarry.Sql.Rounding

namespace Quarry.Sql

open Quarry.Json Quarry.Result Quarry.Text

/-- Whether a character is a blank of ASCII. -/
def isBlankChar (c : Char) : Bool :=
  c == ' ' || (9 ≤ c.toNat && c.toNat ≤ 13)

/-- Takes a sign. -/
def takeSign : List Char → Bool × List Char
  | '-' :: cs => (true, cs)
  | '+' :: cs => (false, cs)
  | cs => (false, cs)

/-- Takes an exponent. It counts only if it has digits; whatever of it was there is taken away. -/
def takeExponent (cs : List Char) : List Char × List Char × Bool × List Char :=
  match cs with
  | c :: rest =>
    if c = 'e' ∨ c = 'E' then
      let (negative, after) := takeSign rest
      let digits := after.takeWhile Char.isDigit
      let mark := if negative then ['e', '-'] else ['e']
      if digits.isEmpty then ([], [], false, after)
      else (mark, digits, true, after.dropWhile Char.isDigit)
    else ([], [], true, cs)
  | [] => ([], [], true, [])

/-- What a text starts with when it is taken for a number. -/
structure LeadingNumber where
  numeral : Numeral
  /-- Whether the number is whole as written. -/
  whole : Bool
  /-- Whether the text writes a number and nothing else. -/
  complete : Bool

/-- The number that a text starts with. -/
def LeadingNumber.ofText (s : String) : LeadingNumber :=
  let cs := s.toList.dropWhile isBlankChar
  let (negative, cs) := takeSign cs
  let whole := cs.takeWhile Char.isDigit
  let cs := cs.dropWhile Char.isDigit
  let (point, fraction, cs) := match cs with
    | '.' :: rest => (true, rest.takeWhile Char.isDigit, rest.dropWhile Char.isDigit)
    | cs => (false, [], cs)
  let (mark, exponent, valid, rest) := takeExponent cs
  let numeral : Numeral := ⟨negative, whole, fraction, mark, exponent⟩
  let marked := cs.head?.any fun c => c == 'e' || c == 'E'
  { numeral := numeral
    whole := !point && !marked
    complete := !(whole.isEmpty && fraction.isEmpty) && valid &&
      (rest.dropWhile isBlankChar).isEmpty }

/-- The number that a text starts with; zero if there is none. -/
def leadingNumber (s : String) : Float := (LeadingNumber.ofText s).numeral.approximate

/-- The number that a text writes: an integer if it is written as one and fits. -/
def numberOfText? (s : String) : Option Cell :=
  let n := LeadingNumber.ofText s
  if n.complete then
    if n.whole then
      match Digits.intOf? ((if n.numeral.negative then ['-'] else []) ++ n.numeral.whole) with
      | some i => if Digits.fitsInt64 i then some (.int i) else some (.float n.numeral.approximate)
      | none => some (.float n.numeral.approximate)
    else some (.float n.numeral.approximate)
  else none

end Quarry.Sql
