/-
# Results of aggregations

* `Bucket`, `Aggregation` — buckets with their counts and numbers, or one number.
* `Aggregation.toJson` — the result as it is returned. The members stand in a fixed order, and the
  numbers of a bucket beside its key and count, sorted by field.
* `RowShapeError` — why the rows of a statement make no result.
-/
import Quarry.Request.Aggregate
import Quarry.Result.Cell

namespace Quarry.Result

open Quarry.Request

/-! ## Results -/

/-- A bucket. -/
structure Bucket where
  key : String
  docCount : Int
  /-- The numbers computed for the bucket, by field. -/
  metrics : Named Json

/-- The result of an aggregation. -/
inductive Aggregation where
  | buckets (bs : List Bucket)
  | metric (value : Json)

/-- The category of a result. -/
def Aggregation.category : Aggregation → Category
  | .buckets _ => .bucket
  | .metric _ => .metricsSingle

/-- The text that stands beside each number of a bucket. -/
def valueText : String := "n/a"

/-- A number of a bucket as it is returned. -/
def metricJson (value : Json) : Json :=
  .object [("value", value), ("value_as_string", .string valueText)]

/-- A bucket as it is returned. -/
def Bucket.toJson (b : Bucket) : Json :=
  .object (("key", .string b.key) :: ("doc_count", .ofInt b.docCount) ::
    b.metrics.mapValues metricJson)

/-- A result as it is returned. -/
def Aggregation.toJson : Aggregation → Json
  | .buckets bs =>
    .object [("doc_count_error_upper_bound", .ofNat 0), ("buckets", .array (bs.map Bucket.toJson))]
  | .metric value => .object [("value", value)]

/-! ## Errors -/

/-- Why rows make no result. -/
inductive RowShapeError where
  /-- A column is absent. -/
  | missingColumn (name : String)
  /-- There is not exactly one row. -/
  | rowCount (label : String) (rows : Nat)
  /-- Hits are no aggregation. -/
  | notAggregation
  /-- A column of a hit is absent or of the wrong type. -/
  | incompleteHit (name : String)
  deriving DecidableEq, Repr

/-- The message for rows that make no result. -/
def RowShapeError.message : RowShapeError → String
  | .missingColumn name => "result row is missing column '" ++ name ++ "'"
  | .rowCount label rows =>
    "metric aggregation '" ++ label ++ "' expected one row, got " ++ Text.Digits.ofNat rows
  | .notAggregation => "hits node does not produce an aggregation"
  | .incompleteHit name => "hit row has no '" ++ name ++ "' column"

end Quarry.Result
