/-
# Scanning JSON text

One pass over the bytes of a text, which gives its outline.

* `scan` — the outline of the value at the start of a text, and whether anything but blanks
  follows it.
* `nestingLimit` — how many arrays and objects may be open at once.
* `readString`, `skipString` — a string read in full, and one only passed over: the second does not
  ask whether escapes form characters or bytes are UTF-8.
* `numeral` — the numeral at the start of a text.
-/
import Quarry.Json.Outline
import Quarry.Text.Utf8

namespace Quarry.Json.Scanner

open Quarry.Text

/-- How many arrays and objects may be open at once. -/
def nestingLimit : Nat := 127

/-- A byte as the character of that code. -/
def asChar (b : UInt8) : Char := Char.ofNat b.toNat

/-- Whether a byte may stand between the parts of a text. -/
def isBlankByte (b : UInt8) : Bool := b == 0x20 || b == 0x09 || b == 0x0A || b == 0x0D

/-- The text after the blanks at its start. -/
def skipBlanks (bs : List UInt8) : List UInt8 := bs.dropWhile isBlankByte

/-! ## Strings -/

/-- The value of four hexadecimal digits, and what follows them. -/
def hexFour : List UInt8 → Except Malformed (Nat × List UInt8)
  | a :: b :: c :: d :: rest =>
    match Digits.hexDigit? (asChar a), Digits.hexDigit? (asChar b), Digits.hexDigit? (asChar c),
      Digits.hexDigit? (asChar d) with
    | some a, some b, some c, some d => .ok (((a * 16 + b) * 16 + c) * 16 + d, rest)
    | _, _, _, _ => .error .invalidEscape
  | _ => .error .eofString

/-- The bytes of the character with a code. -/
def charBytes (code : Nat) : List UInt8 := Utf8.encode (String.singleton (Char.ofNat code))

/-- Whether a code is the first of a surrogate pair. -/
def isLeading (n : Nat) : Bool := 0xD800 ≤ n && n ≤ 0xDBFF

/-- Whether a code is the second of a surrogate pair. -/
def isTrailing (n : Nat) : Bool := 0xDC00 ≤ n && n ≤ 0xDFFF

/-- The escape of a code after its mark: one code, or a pair of surrogates. -/
def readCode (bs : List UInt8) : Except Malformed (List UInt8 × List UInt8) := do
  let (first, rest) ← hexFour bs
  if isTrailing first then throw .loneSurrogate
  if !isLeading first then return (charBytes first, rest)
  match rest with
  | [] => throw .eofString
  | b :: rest =>
    if asChar b ≠ '\\' then throw .missingSurrogate
    match rest with
    | [] => throw .eofString
    | u :: rest =>
      if asChar u ≠ 'u' then throw .missingSurrogate
      let (second, rest) ← hexFour rest
      if !isTrailing second then throw .loneSurrogate
      return (charBytes ((first - 0xD800) * 0x400 + (second - 0xDC00) + 0x10000), rest)

/-- The byte that an escape of one letter stands for. -/
def simpleEscape? (c : Char) : Option UInt8 :=
  match c with
  | '"' => some 0x22
  | '\\' => some 0x5C
  | '/' => some 0x2F
  | 'b' => some 0x08
  | 'f' => some 0x0C
  | 'n' => some 0x0A
  | 'r' => some 0x0D
  | 't' => some 0x09
  | _ => none

/-- What stands after a backslash: the bytes it stands for, and what follows. -/
def readEscape : List UInt8 → Except Malformed (List UInt8 × List UInt8)
  | [] => .error .eofString
  | b :: rest =>
    match simpleEscape? (asChar b) with
    | some e => .ok ([e], rest)
    | none => if asChar b = 'u' then readCode rest else .error .invalidEscape

/-- What follows an escape that is only passed over. -/
def skipEscape : List UInt8 → Except Malformed (List UInt8)
  | [] => .error .eofString
  | b :: rest =>
    match simpleEscape? (asChar b) with
    | some _ => .ok rest
    | none =>
      if asChar b = 'u' then (hexFour rest).map Prod.snd else .error .invalidEscape

/-- The bytes of a string up to its closing mark, with its escapes resolved, and what follows.
`read` holds the bytes already read, last first; the first argument bounds the steps. -/
def readStringFrom : Nat → List UInt8 → List UInt8 →
    Except Malformed (List UInt8 × List UInt8)
  | _, _, [] => .error .eofString
  | 0, _, _ :: _ => .error .eofString
  | fuel + 1, read, b :: rest =>
    if asChar b = '"' then .ok (read.reverse, rest)
    else if asChar b = '\\' then do
      let (bytes, rest) ← readEscape rest
      readStringFrom fuel (bytes.reverse ++ read) rest
    else if b < 0x20 then .error .controlCharacter
    else readStringFrom fuel (b :: read) rest

/-- Reads a string after its opening mark. -/
def readString (bs : List UInt8) : Except Malformed (String × List UInt8) := do
  let (bytes, rest) ← readStringFrom bs.length [] bs
  match Utf8.decode bytes with
  | .ok s => return (s, rest)
  | .error _ => throw .invalidCodePoint

/-- What follows the closing mark of a string that is only passed over. -/
def skipStringFrom : Nat → List UInt8 → Except Malformed (List UInt8)
  | _, [] => .error .eofString
  | 0, _ :: _ => .error .eofString
  | fuel + 1, b :: rest =>
    if asChar b = '"' then .ok rest
    else if asChar b = '\\' then do
      let rest ← skipEscape rest
      skipStringFrom fuel rest
    else if b < 0x20 then .error .controlCharacter
    else skipStringFrom fuel rest

/-- Passes over a string after its opening mark. -/
def skipString (bs : List UInt8) : Except Malformed (List UInt8) := skipStringFrom bs.length bs

/-! ## Numbers -/

/-- Whether a byte is a decimal digit. -/
def isDigitByte (b : UInt8) : Bool := (asChar b).isDigit

/-- The digits at the start of a text, and what follows them. -/
def digitRun (bs : List UInt8) : List Char × List UInt8 :=
  ((bs.takeWhile isDigitByte).map asChar, bs.dropWhile isDigitByte)

/-- A fault where a digit should stand. -/
def digitFault : List UInt8 → Fault
  | [] => ⟨.eofValue, .invalidNumber⟩
  | _ => .plain .invalidNumber

/-- The digits before the point. -/
def wholeDigits (bs : List UInt8) : Except Fault (List Char × List UInt8) :=
  match digitRun bs with
  | ([], rest) => .error (digitFault rest)
  | ('0' :: _ :: _, _) => .error (.plain .invalidNumber)
  | found => .ok found

/-- The digits after the point, if there is one. -/
def fractionDigits (bs : List UInt8) : Except Fault (List Char × List UInt8) :=
  match bs with
  | b :: rest =>
    if asChar b = '.' then
      match digitRun rest with
      | ([], rest) => .error (digitFault rest)
      | found => .ok found
    else .ok ([], bs)
  | [] => .ok ([], bs)

/-- The sign of an exponent, if it has one. -/
def exponentSign : List UInt8 → List Char × List UInt8
  | [] => ([], [])
  | b :: rest =>
    if asChar b = '+' ∨ asChar b = '-' then ([asChar b], rest) else ([], b :: rest)

/-- The exponent mark with its sign and the digits after it, if there is an exponent. -/
def exponentPart (bs : List UInt8) : Except Fault (List Char × List Char × List UInt8) :=
  match bs with
  | b :: rest =>
    if asChar b = 'e' ∨ asChar b = 'E' then
      let (sign, rest) := exponentSign rest
      match digitRun rest with
      | ([], rest) => .error (digitFault rest)
      | (digits, rest) => .ok (asChar b :: sign, digits, rest)
    else .ok ([], [], bs)
  | [] => .ok ([], [], bs)

/-- The numeral at the start of a text after its sign, and what follows it. -/
def numeral (negative : Bool) (bs : List UInt8) : Except Fault (Numeral × List UInt8) := do
  let (whole, rest) ← wholeDigits bs
  let (fraction, rest) ← fractionDigits rest
  let (mark, exponent, rest) ← exponentPart rest
  return ({ negative, whole, fraction, mark, exponent }, rest)

/-! ## Values -/

/-- An outline and what follows it; nothing follows where no value could be made out. -/
abbrev Scanned := Outline × Option (List UInt8)

/-- A value that cannot be made out. -/
def brokenAt (fault : Fault) : Scanned := (.broken fault, none)

/-- The rest of a word that stands for a value. -/
def wordRest : List Char → List UInt8 → Except Malformed (List UInt8)
  | [], bs => .ok bs
  | _ :: _, [] => .error .eofValue
  | c :: cs, b :: bs => if asChar b = c then wordRest cs bs else .error .expectedWord

/-- A word that stands for a value. -/
def scanWord (letters : List Char) (o : Outline) (bs : List UInt8) : Scanned :=
  match wordRest letters bs with
  | .ok rest => (o, some rest)
  | .error m => brokenAt (.plain m)

/-- A number after its sign. -/
def scanNumber (negative : Bool) (bs : List UInt8) : Scanned :=
  match numeral negative bs with
  | .error fault => brokenAt fault
  | .ok (n, rest) =>
    match n.value with
    | .ok v => (.number v, some rest)
    | .error m => (.unreadableNumber m, some rest)

/-- The fault of a string that cannot even be passed over. -/
def stringFault (bs : List UInt8) (skipped : Malformed) : Fault :=
  match readString bs with
  | .ok _ => .plain skipped
  | .error m => ⟨m, skipped⟩

/-- A string after its opening mark. -/
def scanString (bs : List UInt8) : Scanned :=
  match skipString bs with
  | .error m => brokenAt (stringFault bs m)
  | .ok rest =>
    match readString bs with
    | .ok (s, _) => (.string s, some rest)
    | .error m => (.unreadableString m, some rest)

/-- An ending that is a fault, which a reader expecting no more reports as `finish`. -/
def Ending.ofFault (read skip finish : Malformed) : Ending := .broken ⟨read, skip⟩ finish

/-- What stands between elements: where the next one starts, or how the elements end and what
follows the end. -/
def betweenItems (bs : List UInt8) : List UInt8 ⊕ (Ending × Option (List UInt8)) :=
  match skipBlanks bs with
  | [] => .inr (Ending.ofFault .eofList .eofList .eofList, none)
  | b :: rest =>
    if asChar b = ']' then .inr (.closed, some rest)
    else if asChar b = ',' then
      match skipBlanks rest with
      | [] => .inr (Ending.ofFault .eofValue .eofValue .trailingCharacters, none)
      | c :: rest =>
        if asChar c = ']' then
          .inr (Ending.ofFault .trailingComma .expectedValue .trailingComma, none)
        else .inl (c :: rest)
    else
      .inr (Ending.ofFault .expectedCommaOrBracket .expectedCommaOrBracket .trailingCharacters,
        none)

/-- What stands before the first element. -/
def beforeItems (bs : List UInt8) : List UInt8 ⊕ (Ending × Option (List UInt8)) :=
  match skipBlanks bs with
  | [] => .inr (Ending.ofFault .eofList .eofList .eofList, none)
  | b :: rest => if asChar b = ']' then .inr (.closed, some rest) else .inl (b :: rest)

/-- What stands between members: where the name of the next one starts, after its opening mark,
or how the members end and what follows the end. -/
def betweenMembers (bs : List UInt8) : List UInt8 ⊕ (Ending × Option (List UInt8)) :=
  match skipBlanks bs with
  | [] => .inr (Ending.ofFault .eofObject .eofObject .eofObject, none)
  | b :: rest =>
    if asChar b = '}' then .inr (.closed, some rest)
    else if asChar b = ',' then
      match skipBlanks rest with
      | [] => .inr (Ending.ofFault .eofValue .eofObject .trailingComma, none)
      | c :: rest =>
        if asChar c = '"' then .inl rest
        else if asChar c = '}' then
          .inr (Ending.ofFault .trailingComma .keyNotString .trailingComma, none)
        else .inr (Ending.ofFault .keyNotString .keyNotString .trailingComma, none)
    else
      .inr (Ending.ofFault .expectedCommaOrBrace .expectedCommaOrBrace .trailingCharacters, none)

/-- What stands before the first member. -/
def beforeMembers (bs : List UInt8) : List UInt8 ⊕ (Ending × Option (List UInt8)) :=
  match skipBlanks bs with
  | [] => .inr (Ending.ofFault .eofObject .eofObject .eofObject, none)
  | b :: rest =>
    if asChar b = '}' then .inr (.closed, some rest)
    else if asChar b = '"' then .inl rest
    else .inr (Ending.ofFault .keyNotString .keyNotString .trailingCharacters, none)

/-- The name of a member. -/
def memberName (bs : List UInt8) : Except Malformed String := (readString bs).map Prod.fst

/-- What follows the colon after a name. -/
def afterColon (bs : List UInt8) : Except Malformed (List UInt8) :=
  match skipBlanks bs with
  | [] => .error .eofObject
  | b :: rest => if asChar b = ':' then .ok rest else .error .expectedColon

mutual

/-- Scans a value. The first argument bounds the number of values and parts of values, the second
is the number of arrays and objects that may still be opened. -/
def scanValue : Nat → Nat → List UInt8 → Scanned
  | 0, _, _ => brokenAt (.plain .eofValue)
  | fuel + 1, depth, bs =>
    match skipBlanks bs with
    | [] => brokenAt (.plain .eofValue)
    | b :: rest =>
      match asChar b with
      | 'n' => scanWord ['u', 'l', 'l'] .null rest
      | 't' => scanWord ['r', 'u', 'e'] (.bool true) rest
      | 'f' => scanWord ['a', 'l', 's', 'e'] (.bool false) rest
      | '-' => scanNumber true rest
      | '"' => scanString rest
      | '[' =>
        match depth with
        | 0 => brokenAt (.plain .tooDeep)
        | depth + 1 =>
          let (items, ending, rest) := scanItems fuel depth [] (beforeItems rest)
          (.array items ending, rest)
      | '{' =>
        match depth with
        | 0 => brokenAt (.plain .tooDeep)
        | depth + 1 =>
          let (members, ending, rest) := scanMembers fuel depth [] (beforeMembers rest)
          (.object members ending, rest)
      | c =>
        if c.isDigit then scanNumber false (b :: rest) else brokenAt (.plain .expectedValue)

/-- Scans elements; `done` holds those already scanned, last first. -/
def scanItems : Nat → Nat → List Outline → List UInt8 ⊕ (Ending × Option (List UInt8)) →
    List Outline × Ending × Option (List UInt8)
  | _, _, done, .inr (ending, rest) => (done.reverse, ending, rest)
  | 0, _, done, .inl _ => (done.reverse, Ending.ofFault .eofList .eofList .eofList, none)
  | fuel + 1, depth, done, .inl bs =>
    match scanValue fuel depth bs with
    | (o, none) => ((o :: done).reverse, Ending.ofFault .eofList .eofList .eofList, none)
    | (o, some rest) => scanItems fuel depth (o :: done) (betweenItems rest)

/-- Scans members; `done` holds those already scanned, last first. -/
def scanMembers : Nat → Nat → List (Except Malformed String × Outline) →
    List UInt8 ⊕ (Ending × Option (List UInt8)) →
    List (Except Malformed String × Outline) × Ending × Option (List UInt8)
  | _, _, done, .inr (ending, rest) => (done.reverse, ending, rest)
  | 0, _, done, .inl _ => (done.reverse, Ending.ofFault .eofObject .eofObject .eofObject, none)
  | fuel + 1, depth, done, .inl bs =>
    match skipString bs with
    | .error m =>
      let fault := stringFault bs m
      (done.reverse, .broken fault fault.read, none)
    | .ok rest =>
      let name := memberName bs
      match afterColon rest with
      | .error m =>
        (((name, .broken (.plain m)) :: done).reverse, Ending.ofFault m m m, none)
      | .ok rest =>
        match scanValue fuel depth rest with
        | (o, none) => (((name, o) :: done).reverse, Ending.ofFault .eofObject .eofObject .eofObject,
            none)
        | (o, some rest) => scanMembers fuel depth ((name, o) :: done) (betweenMembers rest)

end

end Scanner

/-- The outline of a text, and whether more than blanks follows the value. -/
structure Scan where
  outline : Outline
  trailing : Bool

/-- Scans a text. -/
def scan (bs : List UInt8) : Scan :=
  let (outline, rest) := Scanner.scanValue (2 * bs.length + 2) Scanner.nestingLimit bs
  ⟨outline, match rest with
    | some rest => !(Scanner.skipBlanks rest).isEmpty
    | none => false⟩

end Quarry.Json
