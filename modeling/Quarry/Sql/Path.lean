/-
# Paths into documents

* `Path` — the steps of a path. What is wrong with a path shows only where the walk comes to it.
* `quotedName` — the name that stands between quotation marks, with its escapes.
* `Path.ofText` — the path that a text writes.
* `extract` — the value at a path of a kept document.
-/
import Quarry.Json.Verbatim
import Quarry.Result.Cell
import Quarry.Sql.Rounding

namespace Quarry.Sql

open Quarry.Json Quarry.Result Quarry.Text

/-! ## Paths -/

/-- A step from a value to one inside it. -/
inductive PathStep where
  /-- To the member with a name, which is given by its codes. -/
  | member (name : List Nat)
  /-- To the element with a number. -/
  | element (n : Nat)
  /-- To the element that stands so far before the end. -/
  | fromEnd (n : Nat)
  deriving DecidableEq, Repr

/-- How a path ends. -/
inductive PathEnd where
  | complete
  /-- With something that is no step. -/
  | malformed
  /-- With a bracket that holds no number. -/
  | malformedElement
  deriving DecidableEq, Repr

/-- A path. -/
structure Path where
  steps : List PathStep
  ending : PathEnd
  deriving DecidableEq, Repr

/-- A path with one more step in front. -/
def Path.cons (s : PathStep) (p : Path) : Path := { p with steps := s :: p.steps }

/-! ## Names -/

/-- The code of an escape that is none. -/
def noEscape : Nat := 0x99999

/-- The value of a hexadecimal digit. Other bytes have one, too. -/
def hexNibble (b : Char) : Nat := (b.toNat + 9 * (b.toNat / 64 % 2)) % 16

/-- The number of four hexadecimal digits. -/
def hexWord (a b c d : Char) : Nat :=
  ((hexNibble a * 16 + hexNibble b) * 16 + hexNibble c) * 16 + hexNibble d

/-- Takes the code of a character from the bytes of a text. -/
def takeCode : List Char → Nat × List Char
  | [] => (0, [])
  | b :: rest =>
    let n := b.toNat
    if n < 0xC0 then (n, rest)
    else
      let more := (rest.take 3).takeWhile fun b => b.toNat / 64 == 2
      let first := if n < 0xE0 then n % 32 else if n < 0xF0 then n % 16 else n % 8
      (more.foldl (fun code b => code * 64 + b.toNat % 64) first, rest.drop more.length)

/-- Leaves out line ends behind backslashes. -/
def skipLineEnds : List Char → List Char
  | '\\' :: '\n' :: rest => skipLineEnds rest
  | '\\' :: '\r' :: '\n' :: rest => skipLineEnds rest
  | '\\' :: '\r' :: rest => skipLineEnds rest
  | '\\' :: '\xe2' :: '\x80' :: '\xa8' :: rest => skipLineEnds rest
  | '\\' :: '\xe2' :: '\x80' :: '\xa9' :: rest => skipLineEnds rest
  | bs => bs

/-- The code of a byte behind a backslash. -/
def letterCode (b : Char) : Nat :=
  match b with
  | 'b' => 8
  | 'f' => 12
  | 'n' => 10
  | 'r' => 13
  | 't' => 9
  | 'v' => 11
  | '0' => 0
  | b => if ['\'', '"', '/', '\\'].contains b then b.toNat else noEscape

/-- Takes the code of an escape from the bytes behind a backslash. Where one breaks off, nothing is
left. -/
def takeEscape : List Char → Nat × List Char
  | 'u' :: a :: b :: c :: d :: rest =>
    match rest with
    -- The two halves of a pair stand for one character.
    | '\\' :: 'u' :: e :: f :: g :: h :: after =>
      match Verbatim.pairCode? (hexWord a b c d) (hexWord e f g h) with
      | some whole => (whole, after)
      | none => (hexWord a b c d, rest)
    | _ => (hexWord a b c d, rest)
  | 'x' :: a :: b :: rest => (hexNibble a * 16 + hexNibble b, rest)
  | [] => (noEscape, [])
  -- Here digits are missing, or three bytes have begun that are no line end.
  | b :: rest => if ['u', 'x', '\xe2'].contains b then (noEscape, []) else (letterCode b, rest)

/-- The codes of a name with backslashes, from the bytes of its text. The first argument bounds
their number. -/
def escapedCodes : Nat → List Char → List Nat
  | 0, _ => []
  | _ + 1, [] => []
  | fuel + 1, b :: rest =>
    let (code, rest) :=
      match skipLineEnds (b :: rest) with
      | '\\' :: rest => takeEscape rest
      | rest => takeCode rest
    code :: escapedCodes fuel rest

/-- The codes of the name between quotation marks. -/
def quotedName (cs : List Char) : List Nat :=
  if cs.contains '\\' then
    let bytes := (Utf8.encode (String.ofList cs)).map Scanner.asChar
    escapedCodes bytes.length bytes
  else cs.map Char.toNat

/-! ## Reading -/

/-- A number of thirty-two bits from digits, without regard to what does not fit. -/
def wordOf (digits : List Char) : Nat :=
  digits.foldl (fun n c => (n * 10 + (Digits.digit? c).getD 0) % 4294967296) 0

/-- Reads a number in brackets after the opening one. -/
def elementStep? (cs : List Char) : Option (PathStep × List Char) :=
  let digits := cs.takeWhile Char.isDigit
  match digits, cs.dropWhile Char.isDigit with
  | _ :: _, ']' :: rest => some (.element (wordOf digits), rest)
  | [], '#' :: ']' :: rest => some (.fromEnd 0, rest)
  | [], '#' :: '-' :: cs =>
    let digits := cs.takeWhile Char.isDigit
    match digits, cs.dropWhile Char.isDigit with
    | _ :: _, ']' :: rest => some (.fromEnd (wordOf digits), rest)
    | _, _ => none
  | _, _ => none

/-- Whether a character ends a name without quotation marks. -/
def endsName (c : Char) : Bool := c == '.' || c == '['

/-- Reads a path, by a bound on the number of its steps. -/
def Path.ofChars : Nat → List Char → Path
  | _, [] => ⟨[], .complete⟩
  | 0, _ :: _ => ⟨[], .malformed⟩
  | fuel + 1, '.' :: '"' :: cs =>
    match cs.dropWhile (· != '"') with
    | [] => ⟨[], .malformed⟩
    | _ :: rest => (Path.ofChars fuel rest).cons (.member (quotedName (cs.takeWhile (· != '"'))))
  | fuel + 1, '.' :: cs =>
    let name := cs.takeWhile fun c => !endsName c
    if name.isEmpty then ⟨[], .malformed⟩
    else
      (Path.ofChars fuel (cs.dropWhile fun c => !endsName c)).cons (.member (name.map Char.toNat))
  | fuel + 1, '[' :: cs =>
    match elementStep? cs with
    | some (step, rest) => (Path.ofChars fuel rest).cons step
    | none => ⟨[], .malformedElement⟩
  | _ + 1, _ :: _ => ⟨[], .malformed⟩

/-- The path that a text writes. -/
def Path.ofText (s : String) : Path :=
  match s.toList with
  | '$' :: cs => Path.ofChars cs.length cs
  | _ => ⟨[], .malformed⟩

/-! ## Walking -/

/-- The part of a name before the first code zero. -/
def beforeZero (codes : List Nat) : List Nat := codes.takeWhile (· != 0)

/-- The first member with a name. Names are compared up to a code zero. -/
def memberOf? (name : List Nat) : List (String × Verbatim) → Option Verbatim
  | [] => none
  | (written, v) :: rest =>
    if beforeZero (Verbatim.plainCodes written) = beforeZero name then some v
    else memberOf? name rest

/-- The value one step away. -/
def PathStep.walk? : PathStep → Verbatim → Option Verbatim
  | .member name, .object members => memberOf? name members
  | .element n, .array items => items[n]?
  | .fromEnd n, .array items => if n ≤ items.length then items[items.length - n]? else none
  | _, _ => none

/-- The value at the end of some steps, if they lead to one; `none` where the path is no path. -/
def walkSteps : List PathStep → PathEnd → Verbatim → Option (Option Verbatim)
  | [], .complete, v => some (some v)
  | [], .malformed, _ => none
  | [], .malformedElement, .array _ => none
  | [], .malformedElement, _ => some none
  | s :: rest, ending, v =>
    match s.walk? v with
    | some w => walkSteps rest ending w
    | none => some none

/-- A number as a value of a column: an integer if it is written as one and fits. -/
def numberCell (n : Numeral) : Cell :=
  if n.isWhole then
    match Digits.int64Of? n.text with
    | some i => .int i
    | none => .float n.approximate
  else .float n.approximate

/-- A value inside a document as a value of a column. -/
def cellOf : Verbatim → Cell
  | .null => .null
  | .bool b => .int (if b then 1 else 0)
  | .number n => numberCell n
  | .string written => .text (String.ofList (Verbatim.plainChars written))
  | v => .text v.text

/-- The value at a path of a document; `none` where the path is no path. -/
def extract (document : Verbatim) (path : Path) : Option Cell :=
  (walkSteps path.steps path.ending document).map fun v => (v.map cellOf).getD .null

end Quarry.Sql
