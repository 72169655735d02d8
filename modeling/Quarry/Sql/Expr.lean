/-
# Expressions and statements

* `Expr` — the expressions of statements.
* `Subselect` — a statement in the place of one value. `Output` — what a result column may hold.
* `Statement` — a statement over such expressions. `Statement.sql` — its text.
-/
import Quarry.Request.Sort
import Quarry.Sql.Select

namespace Quarry.Sql

open Quarry.Request

/-! ## Expressions -/

/-- A comparison. -/
inductive Comparison where
  | eq
  | gt
  | ge
  | lt
  | le
  deriving DecidableEq, Repr

/-- The sign of a comparison. -/
def Comparison.sign : Comparison → String
  | .eq => "="
  | .gt => ">"
  | .ge => ">="
  | .lt => "<"
  | .le => "<="

/-- An expression. -/
inductive Expr where
  /-- The number of a row. -/
  | rowid
  /-- The document of a row. -/
  | document
  /-- A field of the document of a row, of the table known by a name if one is given. -/
  | field (qualifier : Option String) (name : String)
  | constant (l : Literal)
  /-- The first of two values that is not missing. -/
  | coalesce (a b : Expr)
  /-- The instant a value says. -/
  | datetime (a : Expr)
  | compare (op : Comparison) (a b : Expr)
  /-- The number of rows of a group. -/
  | count
  /-- The mean over a group. -/
  | avg (a : Expr)
  /-- The greatest value of a group. -/
  | max (a : Expr)
  /-- A column of the result. -/
  | column (name : String)
  deriving DecidableEq, Repr

/-- The text of a field. -/
def fieldSql (qualifier : Option String) (field : String) : String :=
  match qualifier with
  | some q => "JSON_EXTRACT(" ++ q ++ ".content, " ++ stringLiteral (fieldPath field) ++ ")"
  | none => "JSON_EXTRACT(content, " ++ stringLiteral (fieldPath field) ++ ")"

/-- The text of an expression. -/
def Expr.sql : Expr → String
  | .rowid => "rowid"
  | .document => "JSON(content)"
  | .field qualifier name => fieldSql qualifier name
  | .constant l => l.sql
  | .coalesce a b => "COALESCE(" ++ a.sql ++ ", " ++ b.sql ++ ")"
  | .datetime a => "DATETIME(" ++ a.sql ++ ")"
  | .compare op a b => a.sql ++ " " ++ op.sign ++ " " ++ b.sql
  | .count => "COUNT(*)"
  | .avg a => "AVG(" ++ a.sql ++ ")"
  | .max a => "MAX(" ++ a.sql ++ ")"
  | .column name => name

/-! ## Statements -/

/-- A statement in the place of one value. -/
abbrev Subselect := Select Expr Expr SortDirection

/-- The text of a statement in the place of one value. -/
def Subselect.sql (s : Subselect) : String :=
  SelectText.sql (s.mapParts Expr.sql Expr.sql SortDirection.keyword)

/-- What a result column may hold. -/
inductive Output where
  | expr (e : Expr)
  | subselect (s : Subselect)
  deriving DecidableEq, Repr

/-- The text of a result column. -/
def Output.sql : Output → String
  | .expr e => e.sql
  | .subselect s => "(" ++ Subselect.sql s ++ ")"

/-- A statement. -/
abbrev Statement := Select Output Expr SortDirection

/-- The text of a statement. -/
def Statement.sql (s : Statement) : String :=
  SelectText.sql (s.mapParts Output.sql Expr.sql SortDirection.keyword)

end Quarry.Sql
