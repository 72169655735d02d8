/-
# JSON values as written

A kept document is text, and its numbers and strings stay as they were written until they are
asked for.

* `Verbatim` — a value whose numbers and strings are kept as written.
* `Verbatim.ofText?` — reading a text. `Verbatim.text` — the text without blanks.
* `plainCodes`, `plainChars` — the codes that a written string stands for, and its characters.
-/
import Quarry.Json.Scanner

namespace Quarry.Json

open Quarry.Text

/-- A value whose numbers and strings are kept as written. -/
inductive Verbatim where
  | null
  | bool (b : Bool)
  | number (n : Numeral)
  /-- A string by what stands between its marks. -/
  | string (written : String)
  | array (items : List Verbatim)
  | object (members : List (String × Verbatim))

namespace Verbatim

/-! ## Text -/

mutual

/-- The text of a value, without blanks. -/
def text : Verbatim → String
  | .null => "null"
  | .bool b => if b then "true" else "false"
  | .number n => n.text
  | .string s => "\"" ++ s ++ "\""
  | .array items => "[" ++ itemsText items ++ "]"
  | .object members => "\x7b" ++ membersText members ++ "\x7d"

/-- The texts of some values, with commas between them. -/
def itemsText : List Verbatim → String
  | [] => ""
  | [v] => v.text
  | v :: w :: rest => v.text ++ "," ++ itemsText (w :: rest)

/-- The texts of some members, with commas between them. -/
def membersText : List (String × Verbatim) → String
  | [] => ""
  | [(name, v)] => "\"" ++ name ++ "\":" ++ v.text
  | (name, v) :: m :: rest => "\"" ++ name ++ "\":" ++ v.text ++ "," ++ membersText (m :: rest)

end

/-! ## Reading -/

/-- How deeply a kept document may be nested. -/
def nestingLimit : Nat := 1000

/-- Reads a string after its opening mark. -/
def readWritten (bs : List UInt8) : Option (String × List UInt8) :=
  match Scanner.skipString bs with
  | .error _ => none
  | .ok rest =>
    match Utf8.decode (bs.take (bs.length - rest.length - 1)) with
    | .ok s => some (s, rest)
    | .error _ => none

/-- Reads a number after its sign. -/
def readNumber (negative : Bool) (bs : List UInt8) : Option (Verbatim × List UInt8) :=
  match Scanner.numeral negative bs with
  | .ok (n, rest) => some (.number n, rest)
  | .error _ => none

/-- Reads the rest of a word that stands for a value. -/
def readWord (letters : List Char) (v : Verbatim) (bs : List UInt8) :
    Option (Verbatim × List UInt8) :=
  match Scanner.wordRest letters bs with
  | .ok rest => some (v, rest)
  | .error _ => none

/-- What follows a character, after blanks. -/
def after? (c : Char) (bs : List UInt8) : Option (List UInt8) :=
  match Scanner.skipBlanks bs with
  | [] => none
  | b :: rest => if Scanner.asChar b = c then some rest else none

mutual

/-- Reads a value. The first argument bounds the number of values and parts of values, the second
is the number of arrays and objects that may still be opened. -/
def readValue : Nat → Nat → List UInt8 → Option (Verbatim × List UInt8)
  | 0, _, _ => none
  | fuel + 1, depth, bs =>
    match Scanner.skipBlanks bs with
    | [] => none
    | b :: rest =>
      match Scanner.asChar b with
      | 'n' => readWord ['u', 'l', 'l'] .null rest
      | 't' => readWord ['r', 'u', 'e'] (.bool true) rest
      | 'f' => readWord ['a', 'l', 's', 'e'] (.bool false) rest
      | '-' => readNumber true rest
      | '"' => (readWritten rest).map fun (s, rest) => (.string s, rest)
      | '[' =>
        match depth, after? ']' rest with
        | 0, _ => none
        | _ + 1, some rest => some (.array [], rest)
        | depth + 1, none => readItems fuel depth [] rest
      | '\x7b' =>
        match depth, after? '\x7d' rest with
        | 0, _ => none
        | _ + 1, some rest => some (.object [], rest)
        | depth + 1, none => readMembers fuel depth [] rest
      | c => if c.isDigit then readNumber false (b :: rest) else none

/-- Reads elements up to the closing bracket; `done` holds those already read, last first. -/
def readItems : Nat → Nat → List Verbatim → List UInt8 → Option (Verbatim × List UInt8)
  | 0, _, _, _ => none
  | fuel + 1, depth, done, bs =>
    match readValue fuel depth bs with
    | none => none
    | some (v, rest) =>
      match after? ',' rest, after? ']' rest with
      | some rest, _ => readItems fuel depth (v :: done) rest
      | none, some rest => some (.array (v :: done).reverse, rest)
      | none, none => none

/-- Reads members up to the closing brace; `done` holds those already read, last first. -/
def readMembers : Nat → Nat → List (String × Verbatim) → List UInt8 →
    Option (Verbatim × List UInt8)
  | 0, _, _, _ => none
  | fuel + 1, depth, done, bs =>
    match (after? '"' bs).bind readWritten with
    | none => none
    | some (name, rest) =>
      match (after? ':' rest).bind (readValue fuel depth) with
      | none => none
      | some (v, rest) =>
        match after? ',' rest, after? '\x7d' rest with
        | some rest, _ => readMembers fuel depth ((name, v) :: done) rest
        | none, some rest => some (.object ((name, v) :: done).reverse, rest)
        | none, none => none

end

/-- The value that a text writes. -/
def ofText? (s : String) : Option Verbatim :=
  let bs := Utf8.encode s
  match readValue (2 * bs.length + 2) nestingLimit bs with
  | some (v, rest) => if (Scanner.skipBlanks rest).isEmpty then some v else none
  | none => none

/-! ## Strings -/

/-- The number of four hexadecimal digits. -/
def hexFour? (a b c d : Char) : Option Nat := do
  let a ← Digits.hexDigit? a
  let b ← Digits.hexDigit? b
  let c ← Digits.hexDigit? c
  let d ← Digits.hexDigit? d
  some (((a * 16 + b) * 16 + c) * 16 + d)

/-- The character of a code. Half of a pair, standing alone, leaves three marks of something
unreadable. -/
def codeChars (code : Nat) : List Char :=
  if 0xD800 ≤ code ∧ code ≤ 0xDFFF then List.replicate 3 (Char.ofNat 0xFFFD)
  else [Char.ofNat code]

/-- The character that a letter after a backslash stands for. -/
def escapedChar (c : Char) : Char :=
  match c with
  | 'b' => Char.ofNat 8
  | 'f' => Char.ofNat 12
  | 'n' => '\n'
  | 'r' => '\r'
  | 't' => '\t'
  | c => c

/-- The code of a pair of halves, if both are what they should be. -/
def pairCode? (high low : Nat) : Option Nat :=
  if 0xD800 ≤ high ∧ high ≤ 0xDBFF ∧ 0xDC00 ≤ low ∧ low ≤ 0xDFFF then
    some (0x10000 + (high - 0xD800) * 0x400 + (low - 0xDC00))
  else none

/-- The codes that a written string stands for; `half` is a first half of a pair that has been
read. -/
def codesFrom : (half : Option Nat) → List Char → List Nat
  | half, [] => half.toList
  | half, '\\' :: 'u' :: a :: b :: c :: d :: rest =>
    match hexFour? a b c d with
    | none => half.toList ++ codesFrom none rest
    | some code =>
      match half.bind (pairCode? · code) with
      | some whole => whole :: codesFrom none rest
      | none =>
        half.toList ++
          if 0xD800 ≤ code ∧ code ≤ 0xDBFF then codesFrom (some code) rest
          else code :: codesFrom none rest
  | half, '\\' :: c :: rest => half.toList ++ (escapedChar c).toNat :: codesFrom none rest
  | half, c :: rest => half.toList ++ c.toNat :: codesFrom none rest

/-- The codes that a written string stands for. -/
def plainCodes (written : String) : List Nat := codesFrom none written.toList

/-- The characters that a written string stands for. -/
def plainChars (written : String) : List Char := (plainCodes written).flatMap codeChars

end Verbatim

end Quarry.Json
