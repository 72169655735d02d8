/-
# Nodes of plans

Which requests have a plan, and which nodes it has.

* `PlannedSub` — the statement for a number of each bucket.
* `Planned` — the node for an aggregation: one for buckets, or one for a single number.
* `mem_nodes` — the nodes of a plan.
* `compile_eq_ok` — a plan has the predicates of the query, a node for each aggregation in its
  order, and the statement for the hits.
* `mem_columns_bucketNode` — the columns of the statement that makes the buckets.
* `exampleRequest` — a request on which the theorems about plans are tried.
-/
import Quarry.Plan.Compile
import Quarry.Proofs.Plan.Leaves

namespace Quarry

open Quarry.Outcome Quarry.Request Quarry.Sql

/-! ## Kinds of aggregations -/

namespace Request.AggregateKind

open Quarry.Plan

/-- The order of the buckets. -/
def bucketOrder : AggregateKind → List (OrderKey Expr SortDirection)
  | .terms _ => countOrder
  | _ => keyOrder

/-- The number of buckets that are returned at most. -/
def bucketLimit : AggregateKind → Option Nat
  | .terms t => t.size
  | _ => none

end Request.AggregateKind

namespace Plan

/-- A kind computes a number or makes buckets. -/
theorem metricExpr?_eq_none {kind : AggregateKind} :
    metricExpr? kind = none ↔ kind.type.isBucket = true := by
  cases kind <;> simp [metricExpr?, AggregateKind.type, AggregateType.isBucket]

/-- Nothing stands under an aggregation that passes the check. -/
theorem checkNothingUnder_eq_ok {aggs : Named Aggregate} {u : Unit} :
    checkNothingUnder aggs = .ok u ↔ aggs = [] := by
  cases aggs <;> simp [checkNothingUnder]

/-! ## Numbers of buckets -/

/-- The number for each bucket of a field that an aggregation computes. -/
inductive PlannedSub (index : String) (ps : List Expr) (field : String) :
    String × Aggregate → Definition × Subselect → Prop
  | intro {label : String} {a : Aggregate} {kind : AggregateKind} {e : Expr} :
    a.kind = .ok kind → metricExpr? kind = some e → a.aggs = [] →
      PlannedSub index ps field (label, a) (.ofKind kind, metricSubselect index ps field e)

/-- An aggregation under buckets is planned as a number. -/
theorem compileSub_eq_ok {index field label : String} {ps : List Expr} {a : Aggregate}
    {sub : Definition × Subselect} :
    compileSub index ps field label a = .ok sub ↔ PlannedSub index ps field (label, a) sub := by
  constructor
  · intro h
    obtain ⟨kind, hkind, h⟩ := bind_eq_ok.mp h
    cases he : metricExpr? kind with
    | none =>
      rw [he] at h
      cases h
    | some e =>
      rw [he] at h
      obtain ⟨u, hu, h⟩ := bind_eq_ok.mp h
      cases h
      exact .intro hkind he (checkNothingUnder_eq_ok.mp hu)
  · rintro ⟨hkind, he, haggs⟩
    refine bind_eq_ok.mpr ⟨_, hkind, ?_⟩
    rw [he]
    exact bind_eq_ok.mpr ⟨(), checkNothingUnder_eq_ok.mpr haggs, rfl⟩

theorem traverses_compileSubs (index : String) (ps : List Expr) (field : String) :
    Traverses (fun (e : String × Aggregate) => compileSub index ps field e.1 e.2)
      (compileSubs index ps field) where
  nil := rfl
  cons _ _ := rfl

/-- Each aggregation under buckets is planned as a number. -/
theorem compileSubs_eq_ok {index field : String} {ps : List Expr} {aggs : Named Aggregate}
    {subs : List (Definition × Subselect)} :
    compileSubs index ps field aggs = .ok subs ↔
      List.Forall₂ (PlannedSub index ps field) aggs subs := by
  rw [(traverses_compileSubs index ps field).ok_iff]
  exact ⟨List.Forall₂.imp fun _ _ => compileSub_eq_ok.mp,
    List.Forall₂.imp fun _ _ => compileSub_eq_ok.mpr⟩

/-! ## Statements for buckets -/

/-- Buckets are ordered by their counts and keys. -/
theorem expr_of_mem_bucketOrder {kind : AggregateKind} {o : OrderKey Expr SortDirection}
    (ho : o ∈ kind.bucketOrder) :
    o.expr = .column (functionName 0) ∨ o.expr = .column (groupName 0) := by
  have hkey : o ∈ keyOrder → o.expr = .column (groupName 0) := by
    intro ho
    rw [List.mem_singleton.mp ho]
  cases kind with
  | terms t =>
    rcases List.mem_cons.mp ho with rfl | ho
    · exact .inl rfl
    · exact .inr (hkey ho)
  | dateHistogram h => exact .inr (hkey ho)
  | avg f => exact .inr (hkey ho)
  | max f => exact .inr (hkey ho)

/-- The columns of a statement for buckets are the key, the count, and the numbers by their
places. -/
theorem mem_columns_bucketNode {index label : String} {ps : List Expr} {d : Definition}
    {order : List (OrderKey Expr SortDirection)} {limit : Option Nat}
    {subs : List (Definition × Subselect)} {c : Column Output} :
    c ∈ (bucketNode index ps label d order limit subs).statement.columns ↔
      c = ⟨.expr (.field none d.field), groupName 0⟩ ∨ c = ⟨.expr .count, functionName 0⟩ ∨
        ∃ i x, subs[i]? = some x ∧ c = ⟨.subselect x.2, functionName (i + 1)⟩ := by
  simp only [bucketNode, List.mem_cons, List.mem_mapIdx]
  refine or_congr_right (or_congr_right ?_)
  constructor
  · rintro ⟨i, hi, rfl⟩
    exact ⟨i, subs[i], List.getElem?_eq_getElem hi, rfl⟩
  · rintro ⟨i, x, hx, rfl⟩
    obtain ⟨hi, rfl⟩ := List.getElem?_eq_some_iff.mp hx
    exact ⟨i, hi, rfl⟩

/-! ## Nodes -/

/-- The node for an aggregation. -/
inductive Planned (index : String) (ps : List Expr) :
    String × Aggregate → AggregationNode → Prop
  | buckets {label : String} {a : Aggregate} {kind : AggregateKind}
    {subs : List (Definition × Subselect)} :
    a.kind = .ok kind → kind.type.isBucket = true →
    List.Forall₂ (PlannedSub index ps kind.field) a.aggs subs →
      Planned index ps (label, a)
        (bucketNode index ps label (.ofKind kind) kind.bucketOrder kind.bucketLimit subs)
  | metric {label : String} {a : Aggregate} {kind : AggregateKind} {e : Expr} :
    a.kind = .ok kind → metricExpr? kind = some e → a.aggs = [] →
      Planned index ps (label, a) (metricNode index ps label (.ofKind kind) e)

/-- An aggregation is planned as buckets or as a number. -/
theorem compileAggregation_eq_ok {index label : String} {ps : List Expr} {a : Aggregate}
    {node : AggregationNode} :
    compileAggregation index ps label a = .ok node ↔ Planned index ps (label, a) node := by
  constructor
  · intro h
    obtain ⟨kind, hkind, h⟩ := bind_eq_ok.mp h
    -- Two kinds make buckets and two compute a number; each pair is planned alike.
    cases kind with
    | terms t =>
      obtain ⟨subs, hsubs, h⟩ := bind_eq_ok.mp h
      cases h
      exact .buckets hkind rfl (compileSubs_eq_ok.mp hsubs)
    | dateHistogram d =>
      obtain ⟨subs, hsubs, h⟩ := bind_eq_ok.mp h
      cases h
      exact .buckets hkind rfl (compileSubs_eq_ok.mp hsubs)
    | avg f =>
      obtain ⟨u, hu, h⟩ := bind_eq_ok.mp h
      cases h
      exact .metric hkind rfl (checkNothingUnder_eq_ok.mp hu)
    | max f =>
      obtain ⟨u, hu, h⟩ := bind_eq_ok.mp h
      cases h
      exact .metric hkind rfl (checkNothingUnder_eq_ok.mp hu)
  · intro h
    cases h with
    | @buckets _ _ kind subs hkind hbucket hsubs =>
      refine bind_eq_ok.mpr ⟨kind, hkind, ?_⟩
      have hs := compileSubs_eq_ok.mpr hsubs
      cases kind with
      | terms t => exact bind_eq_ok.mpr ⟨subs, hs, rfl⟩
      | dateHistogram d => exact bind_eq_ok.mpr ⟨subs, hs, rfl⟩
      | avg f => cases hbucket
      | max f => cases hbucket
    | @metric _ _ kind e hkind he haggs =>
      refine bind_eq_ok.mpr ⟨kind, hkind, ?_⟩
      have hu : checkNothingUnder a.aggs = .ok () := checkNothingUnder_eq_ok.mpr haggs
      cases kind with
      | terms t => cases he
      | dateHistogram d => cases he
      | avg f =>
        cases he
        exact bind_eq_ok.mpr ⟨(), hu, rfl⟩
      | max f =>
        cases he
        exact bind_eq_ok.mpr ⟨(), hu, rfl⟩

/-- An aggregation of a kind that makes buckets is planned as buckets of that kind. -/
theorem Planned.exists_buckets {index label : String} {ps : List Expr} {a : Aggregate}
    {node : AggregationNode} (h : Planned index ps (label, a) node) {kind : AggregateKind}
    (hkind : a.kind = .ok kind) (hbucket : kind.type.isBucket = true) :
    ∃ subs, List.Forall₂ (PlannedSub index ps kind.field) a.aggs subs ∧
      node = bucketNode index ps label (.ofKind kind) kind.bucketOrder kind.bucketLimit subs := by
  cases h with
  | @buckets _ _ _ subs hkind' _ hsubs =>
    cases hkind.symm.trans hkind'
    exact ⟨subs, hsubs, rfl⟩
  | metric hkind' he _ =>
    cases hkind.symm.trans hkind'
    rw [metricExpr?_eq_none.mpr hbucket] at he
    cases he

/-- An aggregation of a kind that computes a number is planned as that number. -/
theorem Planned.exists_metric {index label : String} {ps : List Expr} {a : Aggregate}
    {node : AggregationNode} (h : Planned index ps (label, a) node) {kind : AggregateKind}
    (hkind : a.kind = .ok kind) (hnumber : kind.type.isBucket = false) :
    ∃ e, metricExpr? kind = some e ∧ node = metricNode index ps label (.ofKind kind) e := by
  cases h with
  | buckets hkind' hbucket _ =>
    cases hkind.symm.trans hkind'
    rw [hnumber] at hbucket
    cases hbucket
  | @metric _ _ _ e hkind' he _ =>
    cases hkind.symm.trans hkind'
    exact ⟨e, he, rfl⟩

theorem traverses_compileAggregations (index : String) (ps : List Expr) :
    Traverses (fun (e : String × Aggregate) => compileAggregation index ps e.1 e.2)
      (compileAggregations index ps) where
  nil := rfl
  cons _ _ := rfl

/-- Each aggregation is planned. -/
theorem compileAggregations_eq_ok {index : String} {ps : List Expr} {aggs : Named Aggregate}
    {nodes : List AggregationNode} :
    compileAggregations index ps aggs = .ok nodes ↔
      List.Forall₂ (Planned index ps) aggs nodes := by
  rw [(traverses_compileAggregations index ps).ok_iff]
  exact ⟨List.Forall₂.imp fun _ _ => compileAggregation_eq_ok.mp,
    List.Forall₂.imp fun _ _ => compileAggregation_eq_ok.mpr⟩

/-! ## Plans -/

/-- The nodes of a plan are those for its aggregations, and the one for its hits. -/
theorem mem_nodes {p : Plan} {n : Node} :
    n ∈ p.nodes ↔ (∃ node ∈ p.aggregations, .aggregation node = n) ∨ n = .hits p.hits := by
  rw [nodes, List.mem_append, List.mem_map, List.mem_singleton]

theorem aggregation_mem_nodes {p : Plan} {node : AggregationNode} (h : node ∈ p.aggregations) :
    .aggregation node ∈ p.nodes :=
  mem_nodes.mpr (.inl ⟨node, h, rfl⟩)

theorem hits_mem_nodes (p : Plan) : .hits p.hits ∈ p.nodes :=
  mem_nodes.mpr (.inr rfl)

/-- A request is planned with the predicates of its query, its aggregations and its hits. -/
structure PlannedWith (index : String) (r : SearchRequest) (p : Plan) (ps : List Expr) : Prop where
  predicates : List.Forall₂ (fun (a : Atom) e => a.expr = .ok e) (leaves r.query) ps
  aggregations : List.Forall₂ (Planned index ps) r.aggs p.aggregations
  hits : p.hits = hitsStatement index ps r

/-- A plan has the predicates of the query, a node for each aggregation, and the hits. -/
theorem compile_eq_ok {index : String} {r : SearchRequest} {p : Plan} :
    compile index r = .ok p ↔ ∃ ps, PlannedWith index r p ps := by
  constructor
  · intro h
    obtain ⟨ps, hps, h⟩ := bind_eq_ok.mp h
    obtain ⟨nodes, hnodes, h⟩ := bind_eq_ok.mp h
    cases h
    exact ⟨ps, predicates_eq_ok.mp (mapError_eq_ok.mp hps),
      compileAggregations_eq_ok.mp (mapError_eq_ok.mp hnodes), rfl⟩
  · rintro ⟨ps, hps, hnodes, hhits⟩
    obtain ⟨aggregations, hits⟩ := p
    refine bind_eq_ok.mpr ⟨ps, mapError_eq_ok.mpr (predicates_eq_ok.mpr hps), ?_⟩
    refine bind_eq_ok.mpr ⟨aggregations, mapError_eq_ok.mpr
      (compileAggregations_eq_ok.mpr hnodes), ?_⟩
    rw [← hhits]
    rfl

/-! ## An example -/

/-- A request with combined queries, two numbers for each bucket of a field, and one for all
documents. -/
def exampleRequest : SearchRequest where
  query := some
    { bool := some
        { must :=
            [{ term := some
                [("level", { value := "-7" }), ("service.keyword", { value := "it's" })] },
             { range := some
                [("time", { gte := some (.ofInt 1000), upperTo := some (.ofInt 2000),
                            includeUpper := some false })] }] } }
  aggs :=
    [("services",
      { terms := some { field := "service", size := some 5 }
        aggs := [("mean", { avg := some { field := "latency" } }),
                 ("slowest", { max := some { field := "latency", missing := some "0" } })] }),
     ("worst", { max := some { field := "latency" } })]

/-- The fields and labels of the example are in order. -/
theorem exampleRequest_ordered : exampleRequest.Ordered where
  query := by
    intro q hq
    cases hq
    refine .intro _ (by simp) (by simp) (by simp) ?_
    intro b hb p hp
    cases hb
    simp only [List.mem_cons, List.not_mem_nil, or_false] at hp
    rcases hp with rfl | rfl
    · exact .intro _ (by simp; decide) (by simp) (by simp) (by simp)
    · exact .intro _ (by simp) (by simp) (by simp; decide) (by simp)
  labels := by decide
  aggs := by
    have hleaf : ∀ a : Aggregate, a.aggs = [] → a.Ordered := by
      intro a ha
      refine .intro a ?_ ?_
      · rw [ha]
        exact Named.ascending_nil
      · intro e he
        rw [ha] at he
        cases he
    intro e he
    simp only [exampleRequest, List.mem_cons, List.not_mem_nil, or_false] at he
    rcases he with rfl | rfl
    · refine .intro _ (by decide) ?_
      intro e he
      simp only [List.mem_cons, List.not_mem_nil, or_false] at he
      rcases he with rfl | rfl <;> exact hleaf _ rfl
    · exact hleaf _ rfl

end Plan

end Quarry
