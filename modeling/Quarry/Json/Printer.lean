/-
# Compact JSON text

* `Json.text` — a value on one line without blanks, the members of an object in their order.
* `Json.quoted` — a string in quotation marks. Only the mark itself, the backslash and the control
  characters below U+0020 are escaped.
-/
import Quarry.Json.Basic

namespace Quarry.Json

open Quarry.Text

/-! ## Strings -/

/-- A character as it stands inside a JSON string. -/
def escapeChar (c : Char) : List Char :=
  if c = '"' then ['\\', '"']
  else if c = '\\' then ['\\', '\\']
  else if c = '\n' then ['\\', 'n']
  else if c = '\r' then ['\\', 'r']
  else if c = '\t' then ['\\', 't']
  else if c = Char.ofNat 8 then ['\\', 'b']
  else if c = Char.ofNat 12 then ['\\', 'f']
  else if c.toNat < 0x20 then
    let hex := Digits.hexChars c.toNat
    '\\' :: 'u' :: List.replicate (4 - hex.length) '0' ++ hex
  else [c]

/-- The characters of a string in quotation marks. -/
def quotedChars (s : String) : List Char := '"' :: s.toList.flatMap escapeChar ++ ['"']

/-- A string in quotation marks. -/
def quoted (s : String) : String := String.ofList (quotedChars s)

/-! ## Values -/

mutual

/-- The text of a value. -/
def text : Json → String
  | .null => "null"
  | .bool b => if b then "true" else "false"
  | .number n => n.text
  | .string s => quoted s
  | .array items => "[" ++ itemsText items ++ "]"
  | .object members => "\x7b" ++ membersText members ++ "\x7d"

/-- The texts of some values, with commas between them. -/
def itemsText : List Json → String
  | [] => ""
  | [v] => v.text
  | v :: w :: rest => v.text ++ "," ++ itemsText (w :: rest)

/-- The texts of some members, with commas between them. -/
def membersText : List (String × Json) → String
  | [] => ""
  | [(name, v)] => quoted name ++ ":" ++ v.text
  | (name, v) :: m :: rest => quoted name ++ ":" ++ v.text ++ "," ++ membersText (m :: rest)

end

end Quarry.Json
