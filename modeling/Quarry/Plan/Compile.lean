/-
# Planning

* `compile` — the plan for a request.

Numbers computed for each bucket are statements of their own inside the statement for the buckets.
They read the same documents and are tied to the bucket by its grouping value.
-/
import Quarry.Error
import Quarry.Plan.Basic
import Quarry.Plan.Predicate
import Quarry.Request.Basic

namespace Quarry.Plan

open Quarry.Request Quarry.Sql Quarry.Text

/-! ## Names -/

/-- The name of a grouping column, counted from zero. -/
def groupName (n : Nat) : String := "g" ++ Digits.ofNat (n + 1)

/-- The name of a computed column, counted from zero. -/
def functionName (n : Nat) : String := "f" ++ Digits.ofNat (n + 1)

/-- The name by which statements inside another one know its table. -/
def outerName : String := "t0"

/-! ## Numbers -/

/-- What a number is computed from. -/
def metricInput (f : FieldAgg) : Expr :=
  match f.missing with
  | some missing => .coalesce (.field none f.field) (.constant (.ofText missing))
  | none => .field none f.field

/-- The number an aggregation computes, if it computes one. -/
def metricExpr? : AggregateKind → Option Expr
  | .avg f => some (.avg (metricInput f))
  | .max f => some (.max (metricInput f))
  | _ => none

/-- Checks that nothing stands under an aggregation that makes no buckets. -/
def checkNothingUnder : Named Aggregate → Except CompileError Unit
  | [] => .ok ()
  | (label, _) :: _ => .error (.parentNotBucket label)

/-- The statement for a number. -/
def metricNode (index : String) (ps : List Expr) (label : String) (d : Definition) (e : Expr) :
    AggregationNode where
  label := label
  columns := .metric ⟨functionName 0, d⟩
  statement :=
    { columns := [⟨.expr e, functionName 0⟩], source := some ⟨index, none⟩, predicates := ps }

/-! ## Buckets -/

/-- What ties a number to its bucket: the grouping values are the same inside and outside. -/
def correlation (field : String) : Expr :=
  .compare .eq (.field none field) (.field (some outerName) field)

/-- The statement for a number of each bucket of a field. -/
def metricSubselect (index : String) (ps : List Expr) (field : String) (e : Expr) : Subselect where
  columns := [⟨e, functionName 0⟩]
  source := some ⟨index, none⟩
  predicates := ps ++ [correlation field]

/-- The number for each bucket of a field that an aggregation computes. -/
def compileSub (index : String) (ps : List Expr) (field label : String) (a : Aggregate) :
    Except CompileError (Definition × Subselect) := do
  let kind ← a.kind
  match metricExpr? kind with
  | none => throw (.bucketUnderBucket label)
  | some e =>
    checkNothingUnder a.aggs
    return (.ofKind kind, metricSubselect index ps field e)

/-- The numbers for each bucket of a field. -/
def compileSubs (index : String) (ps : List Expr) (field : String) :
    List (String × Aggregate) → Except CompileError (List (Definition × Subselect))
  | [] => .ok []
  | (label, a) :: rest => do
    let sub ← compileSub index ps field label a
    let subs ← compileSubs index ps field rest
    return sub :: subs

/-- The order of buckets by falling count and rising key. -/
def countOrder : List (OrderKey Expr SortDirection) :=
  [⟨.column (functionName 0), .desc⟩, ⟨.column (groupName 0), .asc⟩]

/-- The order of buckets by rising key. -/
def keyOrder : List (OrderKey Expr SortDirection) := [⟨.column (groupName 0), .asc⟩]

/-- The statement for buckets. -/
def bucketNode (index : String) (ps : List Expr) (label : String) (d : Definition)
    (order : List (OrderKey Expr SortDirection)) (limit : Option Nat)
    (subs : List (Definition × Subselect)) : AggregationNode where
  label := label
  columns := .buckets ⟨groupName 0, d⟩ ⟨functionName 0, d⟩
    (subs.mapIdx fun i (sub, _) => ⟨functionName (i + 1), sub⟩)
  statement :=
    { columns := ⟨.expr (.field none d.field), groupName 0⟩ :: ⟨.expr .count, functionName 0⟩ ::
        subs.mapIdx fun i (_, s) => ⟨.subselect s, functionName (i + 1)⟩
      source := some ⟨index, if subs.isEmpty then none else some outerName⟩
      predicates := ps
      groups := [.column (groupName 0)]
      order := order
      limit := limit }

/-! ## Plans -/

/-- The statement for an aggregation. -/
def compileAggregation (index : String) (ps : List Expr) (label : String) (a : Aggregate) :
    Except CompileError AggregationNode := do
  let kind ← a.kind
  let d := Definition.ofKind kind
  match kind with
  | .terms t =>
    let subs ← compileSubs index ps t.field a.aggs
    return bucketNode index ps label d countOrder t.size subs
  | .dateHistogram h =>
    let subs ← compileSubs index ps h.field a.aggs
    return bucketNode index ps label d keyOrder none subs
  | .avg f =>
    checkNothingUnder a.aggs
    return metricNode index ps label d (.avg (metricInput f))
  | .max f =>
    checkNothingUnder a.aggs
    return metricNode index ps label d (.max (metricInput f))

/-- The statements for aggregations. -/
def compileAggregations (index : String) (ps : List Expr) :
    List (String × Aggregate) → Except CompileError (List AggregationNode)
  | [] => .ok []
  | (label, a) :: rest => do
    let node ← compileAggregation index ps label a
    let nodes ← compileAggregations index ps rest
    return node :: nodes

/-- The statement for the hits. -/
def hitsStatement (index : String) (ps : List Expr) (r : SearchRequest) : Statement where
  columns := [⟨.expr .rowid, hitNumber⟩, ⟨.expr .document, hitDocument⟩]
  source := some ⟨index, none⟩
  predicates := ps
  order := r.sort.map fun e => ⟨.field none e.field, e.direction⟩
  limit := some r.limit
  offset := r.start

/-- The plan for a request. -/
def compile (index : String) (r : SearchRequest) : Except Error Plan := do
  let ps ← (predicates r.query).mapError .format
  let aggregations ← (compileAggregations index ps r.aggs).mapError .compile
  return ⟨aggregations, hitsStatement index ps r⟩

end Quarry.Plan
