/-
# Quoting

How names and values stand in the text of a statement.

* `identifier`, `stringLiteral` — a text between quotation marks, with a mark inside it written
  twice.
* `Literal` — a constant: a text that writes a 64-bit integer is that integer.
* `fieldPath` — the path of a field inside a document.
-/
import Quarry.Text.Digits

namespace Quarry.Sql

open Quarry.Text

/-! ## Quotation marks -/

/-- Some characters between quotation marks. -/
def enclose (mark : Char) (cs : List Char) : List Char :=
  mark :: cs.flatMap (fun c => if c = mark then [mark, mark] else [c]) ++ [mark]

/-- A name as an identifier. -/
def identifier (name : String) : String := String.ofList (enclose '"' name.toList)

/-- A text as a string literal. -/
def stringLiteral (value : String) : String := String.ofList (enclose '\'' value.toList)

/-! ## Constants -/

/-- A constant. -/
inductive Literal where
  | integer (n : Int)
  | text (s : String)
  deriving DecidableEq, Repr

/-- The constant a value of a request stands for. -/
def Literal.ofText (value : String) : Literal :=
  match Digits.int64Of? value with
  | some n => .integer n
  | none => .text value

/-- A constant in a statement. -/
def Literal.sql : Literal → String
  | .integer n => Digits.ofInt n
  | .text s => stringLiteral s

/-! ## Fields -/

/-- The ending of names of fields that are not analysed; documents have no such fields. -/
def keywordEnding : List Char := ['.', 'k', 'e', 'y', 'w', 'o', 'r', 'd']

/-- The name of the field of a document: one such ending is taken off. -/
def documentField (field : String) : String :=
  let cs := field.toList
  if keywordEnding.isSuffixOf cs then String.ofList (cs.take (cs.length - keywordEnding.length))
  else field

/-- The path of a field. -/
def fieldPath (field : String) : String := "$." ++ documentField field

end Quarry.Sql
