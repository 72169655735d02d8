/-
# Words of TOML

Reading the smallest parts of a document. Each reader takes what stands at the start of a text and
returns it with the rest.

* `skipBlanks`, `skipComment`, `newline?`, `skipFiller` — what means nothing.
* `string?` — the four kinds of strings.
* `moment?`, `float?`, `int?` — dates, times and numbers.
* `keyPath?` — dotted keys.
-/
import Quarry.Json.Number
import Quarry.Toml.Basic

namespace Quarry.Toml

open Quarry.Text

/-! ## Blanks, ends of lines and comments -/

/-- Whether a character is a blank within a line. -/
def isBlankChar (c : Char) : Bool := c == ' ' || c == '\t'

/-- Whether a character may stand in a comment or in a string as it is. -/
def isTextChar (c : Char) : Bool := c == '\t' || (0x20 ≤ c.toNat && c.toNat != 0x7F)

/-- The text after the blanks it starts with. -/
def skipBlanks (cs : List Char) : List Char := cs.dropWhile isBlankChar

/-- The text after the end of a line it starts with. -/
def newline? : List Char → Option (List Char)
  | '\n' :: cs => some cs
  | '\r' :: '\n' :: cs => some cs
  | _ => none

/-- The text after the comment it starts with, if it starts with one. -/
def skipComment : List Char → List Char
  | '#' :: cs => cs.dropWhile isTextChar
  | cs => cs

/-- The text after the rest of a line, which says nothing more. -/
def lineEnd? (cs : List Char) : Option (List Char) :=
  match skipComment (skipBlanks cs) with
  | [] => some []
  | cs => newline? cs

/-- The text after blanks, comments and ends of lines, of which there are at most as many as the
first argument says. -/
def skipFillerFrom : Nat → List Char → List Char
  | 0, cs => cs
  | fuel + 1, cs =>
    let cs := skipBlanks cs
    match newline? (skipComment cs) with
    | some rest => skipFillerFrom fuel rest
    | none => cs

/-- The text after blanks, comments and ends of lines. -/
def skipFiller (cs : List Char) : List Char := skipFillerFrom cs.length cs

/-! ## Strings -/

/-- The value of a text of hexadecimal digits. -/
def hexValue? (cs : List Char) : Option Nat :=
  cs.foldl (fun n c => n.bind fun n => (Digits.hexDigit? c).map fun d => n * 16 + d) (some 0)

/-- The character that some hexadecimal digits name. -/
def namedChar? (count : Nat) (cs : List Char) : Option (Char × List Char) := do
  let digits := cs.take count
  if digits.length < count then none
  let n ← hexValue? digits
  if n.isValidChar then some (Char.ofNat n, cs.drop count) else none

/-- The character that an escape stands for, read after its backslash. -/
def escape? : List Char → Option (Char × List Char)
  | 'b' :: cs => some (Char.ofNat 8, cs)
  | 't' :: cs => some ('\t', cs)
  | 'n' :: cs => some ('\n', cs)
  | 'f' :: cs => some (Char.ofNat 12, cs)
  | 'r' :: cs => some ('\r', cs)
  | '"' :: cs => some ('"', cs)
  | '\\' :: cs => some ('\\', cs)
  | 'u' :: cs => namedChar? 4 cs
  | 'U' :: cs => namedChar? 8 cs
  | _ => none

/-- Reads a string up to the mark that closes it. Only between quotation marks are there escapes. -/
def shortString? (mark : Char) : Nat → List Char → Option (List Char × List Char)
  | 0, _ => none
  | _ + 1, [] => none
  | fuel + 1, c :: cs =>
    if c = mark then some ([], cs)
    else if c = '\\' ∧ mark = '"' then do
      let (c, cs) ← escape? cs
      let (s, cs) ← shortString? mark fuel cs
      return (c :: s, cs)
    else if isTextChar c then do
      let (s, cs) ← shortString? mark fuel cs
      return (c :: s, cs)
    else none

/-- The number of marks that a text starts with. -/
def markCount (mark : Char) (cs : List Char) : Nat := (cs.takeWhile (· == mark)).length

/-- The text after a backslash that makes the end of its line vanish, with the blanks after it. -/
def continuation? (cs : List Char) : Option (List Char) :=
  (newline? (skipBlanks cs)).map fun cs =>
    cs.dropWhile fun c => isBlankChar c || c == '\n' || c == '\r'

/-- Reads a string up to the three marks that close it; up to two more marks before them belong to
the string. -/
def longString? (mark : Char) : Nat → List Char → Option (List Char × List Char)
  | 0, _ => none
  | _ + 1, [] => none
  | fuel + 1, c :: cs =>
    let marks := min (markCount mark (c :: cs)) 5
    if 3 ≤ marks then some (List.replicate (marks - 3) mark, (c :: cs).drop marks)
    else match newline? (c :: cs) with
      | some cs => do
        let (s, cs) ← longString? mark fuel cs
        return ('\n' :: s, cs)
      | none =>
        if c = '\\' ∧ mark = '"' then
          match continuation? cs with
          | some cs => longString? mark fuel cs
          | none => do
            let (c, cs) ← escape? cs
            let (s, cs) ← longString? mark fuel cs
            return (c :: s, cs)
        else if isTextChar c then do
          let (s, cs) ← longString? mark fuel cs
          return (c :: s, cs)
        else none

/-- Reads a string of one line between two marks. -/
def lineString? (mark : Char) : List Char → Option (String × List Char)
  | [] => none
  | c :: cs =>
    if c = mark then
      (shortString? mark (cs.length + 1) cs).map fun (s, cs) => (String.ofList s, cs)
    else none

/-- Reads a string between three marks each; the end of a line right after the first three is not
part of it. -/
def blockString? (mark : Char) (cs : List Char) : Option (String × List Char) :=
  if 3 ≤ markCount mark cs then
    let cs := cs.drop 3
    let cs := (newline? cs).getD cs
    (longString? mark (cs.length + 1) cs).map fun (s, cs) => (String.ofList s, cs)
  else none

/-- Reads a string. -/
def string? (cs : List Char) : Option (String × List Char) :=
  match cs with
  | [] => none
  | mark :: _ =>
    if mark = '"' ∨ mark = '\'' then
      if 3 ≤ markCount mark cs then blockString? mark cs else lineString? mark cs
    else none

/-! ## Dates and times -/

/-- Reads a fixed number of digits. -/
def digitsOf? (count : Nat) (cs : List Char) : Option (Nat × List Char) := do
  let digits := cs.take count
  if digits.length < count then none
  let n ← Digits.natOf? digits
  return (n, cs.drop count)

/-- The text after a character it starts with. -/
def after? (c : Char) : List Char → Option (List Char)
  | d :: cs => if d = c then some cs else none
  | [] => none

/-- The number of days of a month. -/
def daysOfMonth (year month : Nat) : Nat :=
  if month = 2 then
    if year % 4 = 0 ∧ (year % 100 ≠ 0 ∨ year % 400 = 0) then 29 else 28
  else if month = 4 ∨ month = 6 ∨ month = 9 ∨ month = 11 then 30
  else 31

/-- The text after a date. -/
def date? (cs : List Char) : Option (List Char) := do
  let (year, cs) ← digitsOf? 4 cs
  let (month, cs) ← digitsOf? 2 (← after? '-' cs)
  let (day, cs) ← digitsOf? 2 (← after? '-' cs)
  if 1 ≤ month ∧ month ≤ 12 ∧ 1 ≤ day ∧ day ≤ daysOfMonth year month then some cs else none

/-- The text after an hour and a minute. -/
def hourMinute? (cs : List Char) : Option (List Char) := do
  let (hour, cs) ← digitsOf? 2 cs
  let (minute, cs) ← digitsOf? 2 (← after? ':' cs)
  if hour ≤ 23 ∧ minute ≤ 59 then some cs else none

/-- The text after a fraction of a second, if there is one. -/
def skipFraction : List Char → List Char
  | '.' :: c :: cs => if c.isDigit then cs.dropWhile Char.isDigit else '.' :: c :: cs
  | cs => cs

/-- The text after a time. -/
def time? (cs : List Char) : Option (List Char) := do
  let cs ← hourMinute? cs
  let (second, cs) ← digitsOf? 2 (← after? ':' cs)
  if second ≤ 60 then some (skipFraction cs) else none

/-- The text after the distance to universal time, if there is one. -/
def skipOffset (cs : List Char) : List Char :=
  match cs with
  | 'Z' :: rest => rest
  | 'z' :: rest => rest
  | '+' :: rest => (hourMinute? rest).getD cs
  | '-' :: rest => (hourMinute? rest).getD cs
  | _ => cs

/-- The text after the time that may follow a date. -/
def skipTime (cs : List Char) : List Char :=
  match cs with
  | c :: rest =>
    if c = 'T' ∨ c = 't' ∨ c = ' ' then ((time? rest).map skipOffset).getD cs else cs
  | [] => cs

/-- The text after a date, a time, or both. -/
def moment? (cs : List Char) : Option (List Char) :=
  match date? cs with
  | some cs => some (skipTime cs)
  | none => time? cs

/-! ## Numbers -/

/-- Reads the digits after a first one; an underscore may stand between two digits. -/
def moreDigits? (isDigit : Char → Bool) : List Char → Option (List Char × List Char)
  | '_' :: c :: cs =>
    if isDigit c then (moreDigits? isDigit cs).map fun (ds, cs) => (c :: ds, cs) else none
  | c :: cs =>
    if isDigit c then (moreDigits? isDigit cs).map fun (ds, cs) => (c :: ds, cs)
    else if c = '_' then none
    else some ([], c :: cs)
  | [] => some ([], [])

/-- Reads digits, at least one. -/
def digits? (isDigit : Char → Bool) : List Char → Option (List Char × List Char)
  | c :: cs =>
    if isDigit c then (moreDigits? isDigit cs).map fun (ds, cs) => (c :: ds, cs) else none
  | [] => none

/-- Reads a sign, if there is one, and says whether it is a minus. -/
def sign : List Char → Bool × List Char
  | '-' :: cs => (true, cs)
  | '+' :: cs => (false, cs)
  | cs => (false, cs)

/-- Reads the digits of a whole number: a zero stands alone. -/
def whole? : List Char → Option (List Char × List Char)
  | '0' :: cs => some (['0'], cs)
  | cs => digits? Char.isDigit cs

/-- Reads a fraction, if there is one. -/
def fraction? : List Char → Option (List Char × List Char)
  | '.' :: cs => digits? Char.isDigit cs
  | cs => some ([], cs)

/-- Reads an exponent with its mark, if there is one. -/
def exponent? : List Char → Option (List Char × List Char × List Char)
  | c :: cs =>
    if c = 'e' ∨ c = 'E' then do
      let (negative, cs) := sign cs
      let (ds, cs) ← digits? Char.isDigit cs
      return (if negative then ['e', '-'] else ['e'], ds, cs)
    else some ([], [], c :: cs)
  | [] => some ([], [], [])

/-- Reads a number with a fraction, an exponent or both, unless it is too large. -/
def decimal? (cs : List Char) : Option (String × List Char) := do
  let (negative, cs) := sign cs
  let (whole, cs) ← whole? cs
  let (fraction, cs) ← fraction? cs
  let (mark, exponent, cs) ← exponent? cs
  let n : Json.Numeral := ⟨negative, whole, fraction, mark, exponent⟩
  if n.isWhole then none
  else if !negative && n.nearest.isInf then none
  else some (n.text, cs)

/-- Reads an infinity, or what is not a number. -/
def specialFloat? (cs : List Char) : Option (String × List Char) :=
  match (sign cs).2 with
  | 'i' :: 'n' :: 'f' :: cs => some ("inf", cs)
  | 'n' :: 'a' :: 'n' :: cs => some ("nan", cs)
  | _ => none

/-- Reads a number that is not whole. -/
def float? (cs : List Char) : Option (String × List Char) :=
  (decimal? cs).orElse fun _ => specialFloat? cs

/-- The value of digits to a base. -/
def valueOf (base : Nat) (ds : List Char) : Nat :=
  ds.foldl (fun n c => n * base + (Digits.hexDigit? c).getD 0) 0

/-- Whether a character is a digit to a base of at most sixteen. -/
def isDigitOf (base : Nat) (c : Char) : Bool := (Digits.hexDigit? c).any (· < base)

/-- Reads a whole number to another base. -/
def based? (base : Nat) (cs : List Char) : Option (Int × List Char) :=
  (digits? (isDigitOf base) cs).map fun (ds, cs) => ((valueOf base ds : Int), cs)

/-- Reads a whole number. -/
def anyInt? : List Char → Option (Int × List Char)
  | '0' :: 'x' :: cs => based? 16 cs
  | '0' :: 'o' :: cs => based? 8 cs
  | '0' :: 'b' :: cs => based? 2 cs
  | cs => do
    let (negative, cs) := sign cs
    let (ds, cs) ← whole? cs
    let n : Int := valueOf 10 ds
    return (if negative then -n else n, cs)

/-- Reads a whole number of 64 bits. -/
def int? (cs : List Char) : Option (Int × List Char) :=
  (anyInt? cs).filter fun (n, _) => Digits.fitsInt64 n

/-! ## Keys -/

/-- Whether a character may stand in a key as it is. -/
def isKeyChar (c : Char) : Bool := c.isAlphanum || c == '_' || c == '-'

/-- Reads a key. -/
def key? (cs : List Char) : Option (String × List Char) :=
  match cs with
  | '"' :: _ => lineString? '"' cs
  | '\'' :: _ => lineString? '\'' cs
  | _ =>
    match cs.takeWhile isKeyChar with
    | [] => none
    | key => some (String.ofList key, cs.dropWhile isKeyChar)

/-- The greatest number of keys in a path, less one. -/
def pathLimit : Nat := 79

/-- Reads keys between dots, with blanks around them. The first argument bounds their number. -/
def keys? : Nat → List Char → Option (KeyPath × List Char)
  | 0, _ => none
  | fuel + 1, cs => do
    let (key, cs) ← key? (skipBlanks cs)
    match skipBlanks cs with
    | '.' :: cs =>
      let (path, cs) ← keys? fuel cs
      return (⟨key :: path.tables, path.last⟩, cs)
    | cs => return (⟨[], key⟩, cs)

/-- Reads a dotted key. -/
def keyPath? (cs : List Char) : Option (KeyPath × List Char) := keys? pathLimit cs

end Quarry.Toml
