/-
# Limits of statements

A statement that is too large is not run, whatever is in the tables.

* `Expr.height` — the height of an expression as a tree.
* `conditionHeight` — the height of the predicates of a statement, joined to one expression.
* `Statement.depth` — how deeply the parts of a statement are nested.
* `depthLimit`, `lengthLimit` — how deeply they may be nested, and how many columns, groups and
  sort keys there may be.
-/
import Quarry.Sql.Expr

namespace Quarry.Sql

/-! ## Heights -/

/-- The height of an expression of two parts. -/
def joinedHeight (a b : Nat) : Nat := max a b + 1

/-- The height of an expression as a tree. The name of a table before a field adds one, and so does
the sign of an integer. -/
def Expr.height : Expr → Nat
  | .rowid => 1
  | .document => 2
  | .field qualifier _ => if qualifier.isSome then 3 else 2
  | .constant (.integer n) => if n < 0 then 2 else 1
  | .constant (.text _) => 1
  | .coalesce a b => joinedHeight a.height b.height
  | .datetime a => a.height + 1
  | .compare _ a b => joinedHeight a.height b.height
  | .count => 1
  | .avg a => a.height + 1
  | .max a => a.height + 1
  | .column _ => 1

/-- The height of predicates joined from the left; without any, of a comparison of constants. -/
def conditionHeight : List Expr → Nat
  | [] => 2
  | p :: ps => ps.foldl (fun height q => joinedHeight height q.height) p.height

/-- The greatest of some heights. -/
def greatestHeight (heights : List Nat) : Nat := heights.foldr max 0

/-- The heights of the parts of a statement, given those of its columns. -/
def Select.heights {κ δ : Type} (columnHeight : κ → Nat) (s : Select κ Expr δ) : List Nat :=
  conditionHeight s.predicates :: s.columns.map (fun c => columnHeight c.expr) ++
    s.groups.map Expr.height ++ s.order.map fun k => k.expr.height

/-- The height of a statement in the place of one value. -/
def Subselect.height (s : Subselect) : Nat := greatestHeight (s.heights Expr.height)

/-! ## Depths -/

/-- How deeply the parts of a result column are nested. Those of a statement in its place are looked
at below the column, which is higher than the statement by one. -/
def Output.depth : Output → Nat
  | .expr e => e.height
  | .subselect s => s.height + 1 + s.height

/-- How deeply the parts of a statement are nested. -/
def Statement.depth (s : Statement) : Nat := greatestHeight (s.heights Output.depth)

/-! ## Limits -/

/-- How deeply the parts of a statement may be nested. -/
def depthLimit : Nat := 1000

/-- How many columns, groups and sort keys a statement may have. -/
def lengthLimit : Nat := 2000

end Quarry.Sql
