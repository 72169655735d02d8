/-
# Select statements

* `Select` — the clauses of one statement, over any kind of expressions.
* `Select.Step` — one addition to a statement. `Select.build` — a statement made by steps. Only the
  order of the steps for one clause matters.
* `Select.mapParts` — a statement with its expressions replaced.
* `SelectText`, `SelectText.sql` — a statement whose expressions are text, and its text.
-/
import Quarry.Sql.Quote

namespace Quarry.Sql

open Quarry.Text

/-! ## Clauses -/

/-- A column of the result. -/
structure Column (κ : Type) where
  expr : κ
  name : String
  deriving DecidableEq, Repr

/-- The table that is read, and the name by which it is known. -/
structure Source where
  table : String
  name : Option String
  deriving DecidableEq, Repr

/-- A key of the order of the result. -/
structure OrderKey (ε δ : Type) where
  expr : ε
  direction : δ
  deriving DecidableEq, Repr

/-- A statement with columns of type `κ`, other expressions of type `ε` and directions of
type `δ`. -/
structure Select (κ ε δ : Type) where
  columns : List (Column κ) := []
  source : Option Source := none
  /-- What must hold of a row, all together. -/
  predicates : List ε := []
  groups : List ε := []
  order : List (OrderKey ε δ) := []
  limit : Option Nat := none
  offset : Option Nat := none
  deriving DecidableEq, Repr

namespace Select

variable {κ ε δ κ' ε' δ' : Type}

/-! ## Building by steps -/

/-- One addition to a statement. A later table, limit or offset replaces an earlier one. -/
inductive Step (κ ε δ : Type) where
  | column (expr : κ) (name : String)
  | source (table : String) (name : Option String)
  | predicate (expr : ε)
  | group (expr : ε)
  | order (expr : ε) (direction : δ)
  | limit (n : Nat)
  | offset (n : Nat)
  deriving DecidableEq, Repr

/-- The statement after a step. -/
def step (s : Select κ ε δ) : Step κ ε δ → Select κ ε δ
  | .column expr name => { s with columns := s.columns ++ [⟨expr, name⟩] }
  | .source table name => { s with source := some ⟨table, name⟩ }
  | .predicate expr => { s with predicates := s.predicates ++ [expr] }
  | .group expr => { s with groups := s.groups ++ [expr] }
  | .order expr direction => { s with order := s.order ++ [⟨expr, direction⟩] }
  | .limit n => { s with limit := some n }
  | .offset n => { s with offset := some n }

/-- The statement made by some steps. -/
def build (steps : List (Step κ ε δ)) : Select κ ε δ := steps.foldl step {}

/-! ## Replacing expressions -/

/-- A statement with its columns, other expressions and directions replaced. -/
def mapParts (f : κ → κ') (g : ε → ε') (h : δ → δ') (s : Select κ ε δ) : Select κ' ε' δ' where
  columns := s.columns.map fun c => ⟨f c.expr, c.name⟩
  source := s.source
  predicates := s.predicates.map g
  groups := s.groups.map g
  order := s.order.map fun k => ⟨g k.expr, h k.direction⟩
  limit := s.limit
  offset := s.offset

end Select

/-! ## Text -/

/-- A statement whose expressions are text. -/
abbrev SelectText := Select String String String

/-- Texts one after another with a separator between them. -/
def separated (separator : String) : List String → String
  | [] => ""
  | [a] => a
  | a :: b :: rest => a ++ separator ++ separated separator (b :: rest)

/-- The text of a table. -/
def Source.sql (s : Source) : String :=
  match s.name with
  | some name => identifier s.table ++ " AS " ++ name
  | none => identifier s.table

namespace SelectText

/-- The text of the predicates; without any, one that holds of every row. -/
def whereSql : List String → String
  | [] => " WHERE 1 = 1"
  | ps => " WHERE " ++ separated " AND " ps

/-- The text of the groups. -/
def groupSql : List String → String
  | [] => ""
  | gs => " GROUP BY " ++ separated ", " gs

/-- The text of the order. -/
def orderSql : List (OrderKey String String) → String
  | [] => ""
  | ks => " ORDER BY " ++ separated ", " (ks.map fun k => k.expr ++ " " ++ k.direction)

/-- The text of limit and offset. An offset counts only beside a limit, and only above zero. -/
def limitSql (limit offset : Option Nat) : String :=
  match limit with
  | none => ""
  | some n =>
    " LIMIT " ++ Digits.ofNat n ++
      match offset with
      | some (m + 1) => " OFFSET " ++ Digits.ofNat (m + 1)
      | _ => ""

/-- The text of a statement. -/
def sql (s : SelectText) : String :=
  "SELECT " ++ separated ", " (s.columns.map fun c => c.expr ++ " AS " ++ c.name) ++
    " FROM " ++ (s.source.map Source.sql).getD "" ++ whereSql s.predicates ++
    groupSql s.groups ++ orderSql s.order ++ limitSql s.limit s.offset

end SelectText

end Quarry.Sql
