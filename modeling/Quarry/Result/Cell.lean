/-
# Rows of results

* `Cell` — the value of one column.
* `Cell.toJson`, `Cell.key`, `Cell.toInt?`, `Cell.text?` — what a value counts as.
* `Row`, `Row.get?` — the values of a row by the names of the columns.
-/
import Quarry.Json.Basic

namespace Quarry.Result

open Quarry.Text

/-- The value of one column. -/
inductive Cell where
  | null
  | int (n : Int)
  | float (x : Float)
  | text (s : String)
  deriving DecidableEq

namespace Cell

/-- The value as JSON. -/
def toJson : Cell → Json
  | .null => .null
  | .int n => .ofInt n
  | .float x => .ofFloat x
  | .text s => .string s

/-- The value as the key of a bucket; only texts and integers make one that is not empty. -/
def key : Cell → String
  | .text s => s
  | .int n => Digits.ofInt n
  | _ => ""

/-- The value as a 64-bit integer; fractions are cut off. -/
def toInt? : Cell → Option Int
  | .int n => some n
  | .float x => some (Decimal.Binary64.ofFloat x).toInt64
  | .text s => Digits.int64Of? s
  | .null => none

/-- The value if it is a text. -/
def text? : Cell → Option String
  | .text s => some s
  | _ => none

end Cell

/-- The values of a row with the names of their columns. -/
abbrev Row := List (String × Cell)

/-- The value of the first column with a name. -/
def Row.get? (row : Row) (name : String) : Option Cell := row.lookup name

end Quarry.Result
