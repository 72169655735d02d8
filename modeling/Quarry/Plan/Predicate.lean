/-
# Predicates

* `Query.predicates` — what a query asks of a document, as expressions that must all hold.

Of combined queries only those under `must` count, of a range only the first field.
-/
import Quarry.Date.Format
import Quarry.Request.Query
import Quarry.Sql.Expr

namespace Quarry.Plan

open Quarry.Date Quarry.Request Quarry.Sql

/-! ## Single predicates -/

/-- A field equals a value. -/
def equality (field value : String) : Expr :=
  .compare .eq (.field none field) (.constant (.ofText value))

/-- The comparison for the place of a bound. -/
def comparisonOf : RangeOp → Comparison
  | .gt => .gt
  | .gte => .ge
  | .lt => .lt
  | .lte => .le

/-- The text of a bound after conversion. -/
def boundText : Json → String
  | .string s => s
  | v => v.text

/-- A field keeps to a bound, both taken as instants. -/
def boundPredicate (field : String) (format : DateFormat) (op : RangeOp) (b : Bound) :
    Except FormatError Expr := do
  let v ← format.toCanonical b.toJson
  return .compare (comparisonOf op) (.datetime (.field none field))
    (.datetime (.constant (.text (boundText v))))

/-- The format of the bounds of a range. -/
def rangeFormat (p : RangeParams) : DateFormat :=
  .ofName (p.format.getD defaultRangeFormat)

/-- A field keeps to its bounds, the upper one first. -/
def rangePredicates : Named RangeParams → Except FormatError (List Expr)
  | [] => .ok []
  | (field, p) :: _ =>
    (p.upper.toList ++ p.lower.toList).mapM fun (op, b) =>
      boundPredicate field (rangeFormat p) op b

/-! ## Queries -/

mutual

/-- What a query asks of a document. -/
def queryPredicates : Query → Except FormatError (List Expr)
  | ⟨_, _, some b, _, _⟩ => boolPredicates b
  | ⟨some fields, _, none, _, _⟩ => .ok (fields.map fun (field, t) => equality field t.value)
  | ⟨none, some fields, none, _, _⟩ =>
    .ok (fields.map fun (field, m) => equality field m.query)
  | ⟨none, none, none, some fields, _⟩ => rangePredicates fields
  | ⟨none, none, none, none, _⟩ => .ok []

/-- What combined queries ask of a document. -/
def boolPredicates : BoolQuery Query → Except FormatError (List Expr)
  | ⟨must, _, _⟩ => allPredicates must

/-- What several queries ask of a document, one after another. -/
def allPredicates : List Query → Except FormatError (List Expr)
  | [] => .ok []
  | q :: rest => do
    let first ← queryPredicates q
    let others ← allPredicates rest
    return first ++ others

end

/-- What a request asks of a document; without a query, nothing. -/
def predicates : Option Query → Except FormatError (List Expr)
  | some q => queryPredicates q
  | none => .ok []

end Quarry.Plan
