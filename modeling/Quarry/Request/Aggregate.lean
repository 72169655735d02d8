/-
# Aggregations

* `Aggregate` — the definition of an aggregation, with the aggregations under it.
* `Aggregate.kind` — its one kind; an aggregation that defines none or several is no aggregation.
* `Aggregate.category` — the category of result that it announces.
* `CompileError` — why a request that can be read still cannot be carried out.
* `Aggregate.decode`, `decodeAggregates` — reading.
-/
import Quarry.Request.Scalar

namespace Quarry.Request

open Quarry.Json

/-! ## Definitions -/

/-- Buckets by the values of a field. -/
structure TermsAgg where
  field : String := ""
  size : Option Nat := none
  deriving DecidableEq, Repr

/-- Buckets by the values of a date field; the settings of intervals have no effect. -/
structure DateHistogramAgg where
  field : String := ""
  buckets : Option Nat := none
  fixedInterval : Option String := none
  calendarInterval : Option String := none
  deriving DecidableEq, Repr

/-- A number computed from a field. -/
structure FieldAgg where
  field : String := ""
  /-- What stands in for the field in documents without it. -/
  missing : Option String := none
  deriving DecidableEq, Repr

/-- The definition of an aggregation. -/
structure Aggregate where
  terms : Option TermsAgg := none
  dateHistogram : Option DateHistogramAgg := none
  avg : Option FieldAgg := none
  max : Option FieldAgg := none
  /-- The aggregations under it, by label. -/
  aggs : List (String × Aggregate) := []

/-! ## Kinds -/

/-- What an aggregation does. -/
inductive AggregateType where
  | terms
  | dateHistogram
  | avg
  | max
  deriving DecidableEq, Repr

/-- The name of what an aggregation does. -/
def AggregateType.name : AggregateType → String
  | .terms => "terms"
  | .dateHistogram => "date_histogram"
  | .avg => "avg"
  | .max => "max"

/-- Whether the aggregation makes buckets. -/
def AggregateType.isBucket : AggregateType → Bool
  | .terms => true
  | .dateHistogram => true
  | _ => false

/-- The kinds of aggregation with their settings. -/
inductive AggregateKind where
  | terms (t : TermsAgg)
  | dateHistogram (d : DateHistogramAgg)
  | avg (f : FieldAgg)
  | max (f : FieldAgg)
  deriving DecidableEq, Repr

namespace AggregateKind

/-- What an aggregation of the kind does. -/
def type : AggregateKind → AggregateType
  | .terms _ => .terms
  | .dateHistogram _ => .dateHistogram
  | .avg _ => .avg
  | .max _ => .max

/-- The field that is aggregated. -/
def field : AggregateKind → String
  | .terms t => t.field
  | .dateHistogram d => d.field
  | .avg f => f.field
  | .max f => f.field

end AggregateKind

/-- Why a request cannot be carried out. -/
inductive CompileError where
  /-- An aggregation defines no kind. -/
  | noKind
  /-- An aggregation defines several kinds. -/
  | severalKinds (count : Nat)
  /-- An aggregation stands under one that makes no buckets. -/
  | parentNotBucket (label : String)
  /-- An aggregation that makes buckets stands under another one. -/
  | bucketUnderBucket (label : String)
  deriving DecidableEq, Repr

/-- The message for a request that cannot be carried out. -/
def CompileError.message : CompileError → String
  | .noKind => "aggregation defines none of terms, date_histogram, avg, max"
  | .severalKinds n =>
    "aggregation defines " ++ Text.Digits.ofNat n ++ " aggregation types, expected one"
  | .parentNotBucket label =>
    "sub-aggregation '" ++ label ++ "' needs a terms or date_histogram parent"
  | .bucketUnderBucket label =>
    "bucket sub-aggregation '" ++ label ++ "' under a bucket aggregation is not supported"

/-- A category of results. -/
inductive Category where
  | metricsSingle
  | bucket
  deriving DecidableEq, Repr

/-- The name of a category. -/
def Category.name : Category → String
  | .metricsSingle => "MetricsSingle"
  | .bucket => "Bucket"

namespace Aggregate

/-- The kinds that are defined, in a fixed order. -/
def kinds (a : Aggregate) : List AggregateKind :=
  (a.terms.map .terms).toList ++ (a.dateHistogram.map .dateHistogram).toList ++
    (a.avg.map .avg).toList ++ (a.max.map .max).toList

/-- The one kind that is defined. -/
def kind (a : Aggregate) : Except CompileError AggregateKind :=
  match a.kinds with
  | [] => .error .noKind
  | [k] => .ok k
  | ks => .error (.severalKinds ks.length)

/-- The category that is announced: a number before buckets, and none for a date histogram. -/
def category (a : Aggregate) : Option Category :=
  if a.avg.isSome || a.max.isSome then some .metricsSingle
  else if a.terms.isSome then some .bucket
  else none

end Aggregate

/-! ## Reading aggregations -/

/-- Buckets by values as a record. -/
def TermsAgg.record : Record TermsAgg where
  name := "TermsAgg"
  fields := ["field", "size"]
  required := ["field"]
  start := {}
  set name o t :=
    match name with
    | "field" => (Decoder.string o).map fun v => { t with field := v }
    | _ => (Decoder.optional Decoder.size o).map fun v => { t with size := v }

/-- Buckets by dates as a record. -/
def DateHistogramAgg.record : Record DateHistogramAgg where
  name := "DateHistogramAgg"
  fields := ["field", "buckets", "fixed_interval", "calendar_interval"]
  required := ["field"]
  start := {}
  set name o d :=
    match name with
    | "field" => (Decoder.string o).map fun v => { d with field := v }
    | "buckets" => (Decoder.optional Decoder.size o).map fun v => { d with buckets := v }
    | "fixed_interval" =>
      (Decoder.optional Decoder.string o).map fun v => { d with fixedInterval := v }
    | _ => (Decoder.optional Decoder.string o).map fun v => { d with calendarInterval := v }

/-- A number from a field as a record. -/
def FieldAgg.record : Record FieldAgg where
  name := "FieldAgg"
  fields := ["field", "missing"]
  required := ["field"]
  start := {}
  set name o f :=
    match name with
    | "field" => (Decoder.string o).map fun v => { f with field := v }
    | _ => (optionalScalarText o).map fun v => { f with missing := v }

/-- Aggregations may be given under two names; the longer one wins unless it gives none. -/
def pickAggregates (aggs aggregations : Option (Named Aggregate)) : Named Aggregate :=
  match aggregations with
  | some (a :: rest) => a :: rest
  | _ => aggs.getD []

/-- An aggregation as it is read, before the two names are made one. -/
structure RawAggregate where
  aggregate : Aggregate := {}
  aggs : Option (Named Aggregate) := none
  aggregations : Option (Named Aggregate) := none

/-- The aggregation with the aggregations under it. -/
def RawAggregate.settle (r : RawAggregate) : Aggregate :=
  { r.aggregate with aggs := pickAggregates r.aggs r.aggregations }

/-- An aggregation as a record, given how the aggregations under it are read. -/
def RawAggregate.record (aggregate : Decoder Aggregate) : Record RawAggregate where
  name := "RawAggregate"
  fields := ["terms", "date_histogram", "avg", "max", "aggs", "aggregations"]
  required := []
  start := {}
  set name o r :=
    let a := r.aggregate
    match name with
    | "terms" => (Decoder.optional TermsAgg.record.decode o).map fun v =>
      { r with aggregate := { a with terms := v } }
    | "date_histogram" => (Decoder.optional DateHistogramAgg.record.decode o).map fun v =>
      { r with aggregate := { a with dateHistogram := v } }
    | "avg" => (Decoder.optional FieldAgg.record.decode o).map fun v =>
      { r with aggregate := { a with avg := v } }
    | "max" => (Decoder.optional FieldAgg.record.decode o).map fun v =>
      { r with aggregate := { a with max := v } }
    | "aggs" => (Decoder.optional (Decoder.namedOf aggregate) o).map fun v =>
      { r with aggs := v }
    | _ => (Decoder.optional (Decoder.namedOf aggregate) o).map fun v =>
      { r with aggregations := v }

/-- Reads an aggregation with at most a number of aggregations inside one another. -/
def Aggregate.decodeWithin : Nat → Decoder Aggregate
  | 0 => fun _ => .error (.malformed .tooDeep)
  | n + 1 => fun o =>
    ((RawAggregate.record (Aggregate.decodeWithin n)).decode o).map RawAggregate.settle

/-- Reads an aggregation. Aggregations are not nested more deeply than the value that writes
them. -/
def Aggregate.decode : Decoder Aggregate := fun o => Aggregate.decodeWithin o.height o

end Quarry.Request
