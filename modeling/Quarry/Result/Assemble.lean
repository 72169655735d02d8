/-
# Results from rows

* `assemble` — the result of an aggregation from the rows of its statement.
-/
import Quarry.Plan.Basic
import Quarry.Result.Aggregation

namespace Quarry.Result

open Quarry.Plan

/-- The value of a column that must be there. -/
def cell (row : Row) (name : String) : Except RowShapeError Cell :=
  match row.get? name with
  | some c => .ok c
  | none => .error (.missingColumn name)

/-- The numbers of a bucket by field; of two for one field the later stays. -/
def bucketMetrics (row : Row) : Named Json → List Alias → Except RowShapeError (Named Json)
  | done, [] => .ok done
  | done, a :: rest => do
    let c ← cell row a.name
    bucketMetrics row (done.insert a.definition.field c.toJson) rest

/-- The bucket of a row. -/
def bucketOfRow (key count : Alias) (metrics : List Alias) (row : Row) :
    Except RowShapeError Bucket := do
  let k ← cell row key.name
  let n ← cell row count.name
  let ms ← bucketMetrics row [] metrics
  return ⟨k.key, n.toInt?.getD 0, ms⟩

/-- The buckets of rows, in their order. -/
def bucketsOfRows (key count : Alias) (metrics : List Alias) :
    List Row → Except RowShapeError (List Bucket)
  | [] => .ok []
  | row :: rest => do
    let b ← bucketOfRow key count metrics row
    let bs ← bucketsOfRows key count metrics rest
    return b :: bs

/-- The result of an aggregation from the rows of its statement. -/
def assembleAggregation (n : AggregationNode) (rows : List Row) :
    Except RowShapeError Aggregation :=
  match n.columns with
  | .buckets key count metrics => (bucketsOfRows key count metrics rows).map .buckets
  | .metric value =>
    match rows with
    | [row] => (cell row value.name).map fun c => .metric c.toJson
    | _ => .error (.rowCount n.label rows.length)

/-- The result of a node under its label; only aggregations have one. -/
def assemble : Node → List Row → Except RowShapeError (String × Aggregation)
  | .aggregation n, rows => (assembleAggregation n rows).map fun r => (n.label, r)
  | .hits _, _ => .error .notAggregation

end Quarry.Result
