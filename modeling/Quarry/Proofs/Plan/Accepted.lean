/-
# Requests that have a plan

Which requests have a plan, and what is wrong with the others.

* `Aggregate.Supported` — an aggregation is a number, or buckets with numbers under them.
* `Query.HasRange` — a range takes effect in a query.
* `Unconvertible` — a range that takes effect has a bound that its format does not convert.
* `Covers` — a plan has a node for each aggregation and then the hits.
* `compile_outcome` — there is a plan just for requests without either fault, and the error of any
  other one says which it has.
-/
import Quarry.Proofs.Plan.Nodes

namespace Quarry

open Quarry.Date Quarry.Outcome Quarry.Request Quarry.Sql

/-! ## Aggregations -/

namespace Request.Aggregate

/-- One kind is defined, and it computes a number. -/
def IsNumber (a : Aggregate) : Prop :=
  a.terms = none ∧ a.dateHistogram = none ∧
    (a.avg.isSome ∧ a.max = none ∨ a.avg = none ∧ a.max.isSome)

/-- One kind is defined, and it makes buckets. -/
def IsBuckets (a : Aggregate) : Prop :=
  a.avg = none ∧ a.max = none ∧
    (a.terms.isSome ∧ a.dateHistogram = none ∨ a.terms = none ∧ a.dateHistogram.isSome)

/-- The aggregations that have a plan: a number with nothing under it, and buckets under which there
are only such numbers. -/
inductive Supported (a : Aggregate) : Prop
  | number : a.IsNumber → a.aggs = [] → Supported a
  | buckets : a.IsBuckets → (∀ e ∈ a.aggs, e.2.IsNumber ∧ e.2.aggs = []) → Supported a

/-- A single kind that computes a number. -/
theorem isNumber_iff {a : Aggregate} :
    a.IsNumber ↔ ∃ kind e, a.kind = .ok kind ∧ Plan.metricExpr? kind = some e := by
  obtain ⟨terms, dateHistogram, avg, max, aggs⟩ := a
  cases terms <;> cases dateHistogram <;> cases avg <;> cases max <;>
    simp [IsNumber, kind, kinds, Plan.metricExpr?]

/-- A single kind that makes buckets. -/
theorem isBuckets_iff {a : Aggregate} :
    a.IsBuckets ↔ ∃ kind, a.kind = .ok kind ∧ kind.type.isBucket = true := by
  obtain ⟨terms, dateHistogram, avg, max, aggs⟩ := a
  cases terms <;> cases dateHistogram <;> cases avg <;> cases max <;>
    simp [IsBuckets, kind, kinds, AggregateKind.type, AggregateType.isBucket]

end Request.Aggregate

namespace Plan

/-- An aggregation under buckets has a statement just if it is a number with nothing under it. -/
theorem exists_plannedSub_iff {index field : String} {ps : List Expr} {e : String × Aggregate} :
    (∃ x, PlannedSub index ps field e x) ↔ e.2.IsNumber ∧ e.2.aggs = [] := by
  rw [Aggregate.isNumber_iff]
  constructor
  · rintro ⟨x, hkind, he, haggs⟩
    exact ⟨⟨_, _, hkind, he⟩, haggs⟩
  · rintro ⟨⟨kind, x, hkind, he⟩, haggs⟩
    exact ⟨_, .intro hkind he haggs⟩

/-- An aggregation has a node just if it is supported. -/
theorem exists_planned_iff {index : String} {ps : List Expr} {e : String × Aggregate} :
    (∃ n, Planned index ps e n) ↔ e.2.Supported := by
  obtain ⟨label, a⟩ := e
  constructor
  · rintro ⟨n, h⟩
    cases h with
    | buckets hkind hbucket hsubs =>
      refine .buckets (Aggregate.isBuckets_iff.mpr ⟨_, hkind, hbucket⟩) fun sub hsub => ?_
      obtain ⟨x, -, hx⟩ := exists_of_mem_right hsubs.flip hsub
      exact exists_plannedSub_iff.mp ⟨x, hx⟩
    | metric hkind he haggs => exact .number (Aggregate.isNumber_iff.mpr ⟨_, _, hkind, he⟩) haggs
  · intro h
    cases h with
    | number hnumber haggs =>
      obtain ⟨kind, x, hkind, he⟩ := Aggregate.isNumber_iff.mp hnumber
      exact ⟨_, .metric hkind he haggs⟩
    | buckets hbuckets hsubs =>
      obtain ⟨kind, hkind, hbucket⟩ := Aggregate.isBuckets_iff.mp hbuckets
      obtain ⟨subs, hplanned⟩ := exists_forall₂ (R := PlannedSub index ps kind.field)
        fun sub hsub => exists_plannedSub_iff.mpr (hsubs sub hsub)
      exact ⟨_, .buckets hkind hbucket hplanned⟩

end Plan

/-! ## Ranges -/

/-- A range takes effect in a query: it stands for the first field of the range of the query, where
no other kind comes before it, or in a query under `must`. -/
inductive Request.Query.HasRange : Query → String → RangeParams → Prop
  | here {q : Query} {fields : Named RangeParams} {field : String} {p : RangeParams} :
    q.bool = none → q.term = none → q.matching = none → q.range = some fields →
    (field, p) ∈ fields → (∀ e ∈ fields, field ≤ e.1) → HasRange q field p
  | under {q c : Query} {b : BoolQuery Query} {field : String} {p : RangeParams} :
    q.bool = some b → c ∈ b.must → HasRange c field p → HasRange q field p

namespace Plan

/-- A range that takes effect has a bound that takes effect and that its format does not convert. -/
def Unconvertible (query : Option Query) : Prop :=
  ∃ q ∈ query, ∃ field p, q.HasRange field p ∧
    ∃ op b, (p.effectiveUpper = some (op, b) ∨ p.effectiveLower = some (op, b)) ∧
      ∃ e, (rangeFormat p).toCanonical b.toJson = .error e

/-- The first field of an ascending range is the least one. -/
theorem mem_least_iff {α : Type} {fields : Named α} (h : fields.Ascending) {field : String}
    {a : α} : ((field, a) ∈ fields ∧ ∀ e ∈ fields, field ≤ e.1) ↔ fields.head? = some (field, a) := by
  cases fields with
  | nil => simp
  | cons first rest =>
    obtain ⟨hfirst, -⟩ := List.pairwise_cons.mp h
    rw [List.head?_cons, Option.some.injEq]
    constructor
    · rintro ⟨hmem, hleast⟩
      rcases List.mem_cons.mp hmem with heq | hrest
      · exact heq.symm
      · exact absurd (hfirst _ hrest) (not_lt.mpr (hleast first List.mem_cons_self))
    · rintro rfl
      refine ⟨List.mem_cons_self, List.forall_mem_cons.mpr ⟨le_refl field, fun e he => ?_⟩⟩
      exact le_of_lt (hfirst e he)

section

variable {field : String}

/-- The ranges that take effect are those of the clause that does. -/
theorem hasRange_iff {q : Query} (h : ∀ fields ∈ q.range, fields.Ascending) {p : RangeParams} :
    q.HasRange field p ↔
      match q.clause with
      | .bool b => ∃ c ∈ b.must, c.HasRange field p
      | .range fields => fields.head? = some (field, p)
      | .term _ => False
      | .matching _ => False
      | .matchAll => False := by
  obtain ⟨term, matching, bool, range, queryString⟩ := q
  constructor
  · intro hp
    cases hp with
    | here hbool hterm hmatching hfields hmem hleast =>
      cases hbool
      cases hterm
      cases hmatching
      cases hfields
      exact (mem_least_iff (h _ rfl)).mp ⟨hmem, hleast⟩
    | under hbool hc hp =>
      cases hbool
      exact ⟨_, hc, hp⟩
  · intro hclause
    rcases bool with _ | b
    · rcases term with _ | _
      · rcases matching with _ | _
        · rcases range with _ | fields
          · cases hclause
          · obtain ⟨hmem, hleast⟩ := (mem_least_iff (h fields rfl)).mpr hclause
            exact .here rfl rfl rfl rfl hmem hleast
        · cases hclause
      · cases hclause
    · obtain ⟨c, hc, hp⟩ := hclause
      exact .under rfl hc hp

variable {format : DateFormat} {op : RangeOp} {b : Bound}

/-- The comparisons of a range are those with the bounds of its first field. -/
theorem bound_mem_rangeLeaves_iff {fields : Named RangeParams} :
    Atom.bound field format op b ∈ rangeLeaves fields ↔
      ∃ p, fields.head? = some (field, p) ∧ format = rangeFormat p ∧
        (p.effectiveUpper = some (op, b) ∨ p.effectiveLower = some (op, b)) := by
  cases fields with
  | nil => simp [rangeLeaves]
  | cons first rest =>
    obtain ⟨name, p⟩ := first
    constructor
    · intro h
      obtain ⟨⟨op', b'⟩, hbound, heq⟩ := List.mem_map.mp h
      cases heq
      exact ⟨p, rfl, rfl, by simpa using hbound⟩
    · rintro ⟨p', hhead, rfl, hbound⟩
      cases hhead
      exact List.mem_map.mpr ⟨(op, b), by simpa using hbound, rfl⟩

/-- The comparisons with bounds are those of the ranges that take effect. -/
theorem bound_mem_leaves_iff {q : Query} (hq : q.Ordered) :
    Atom.bound field format op b ∈ q.leaves ↔ ∃ p, q.HasRange field p ∧ format = rangeFormat p ∧
      (p.effectiveUpper = some (op, b) ∨ p.effectiveLower = some (op, b)) := by
  induction hq with
  | intro q _ _ hrange _ ih =>
    rw [q.leaves_eq]
    simp only [hasRange_iff hrange]
    obtain ⟨term, matching, bool, range, queryString⟩ := q
    rcases bool with _ | c
    · rcases term with _ | _
      · rcases matching with _ | _
        · rcases range with _ | fields
          · simp [Query.clause]
          · exact bound_mem_rangeLeaves_iff
        · simp [Query.clause]
      · simp [Query.clause]
    · show _ ∈ c.must.flatMap Query.leaves ↔ ∃ p, (∃ sub ∈ c.must, sub.HasRange field p) ∧ _
      rw [List.mem_flatMap]
      constructor
      · rintro ⟨sub, hsub, hmem⟩
        obtain ⟨p, hp, hparts⟩ := (ih c rfl sub hsub).mp hmem
        exact ⟨p, ⟨sub, hsub, hp⟩, hparts⟩
      · rintro ⟨p, ⟨sub, hsub, hp⟩, hparts⟩
        exact ⟨sub, hsub, (ih c rfl sub hsub).mpr ⟨p, hp, hparts⟩⟩

end

/-- A comparison has no predicate just if it is one with a bound that is not converted. -/
theorem atom_fails_iff {a : Atom} : (∀ e, a.expr ≠ .ok e) ↔ ∃ field format op b e,
    a = .bound field format op b ∧ format.toCanonical b.toJson = .error e := by
  cases a with
  | equal field value => exact iff_of_false (fun hno => hno _ rfl) (by simp)
  | bound field format op b =>
    show (∀ e, boundPredicate field format op b ≠ .ok e) ↔ _
    unfold boundPredicate
    cases hconverted : format.toCanonical b.toJson with
    | error e => exact iff_of_true (fun _ => nofun) ⟨_, _, _, _, e, rfl, hconverted⟩
    | ok v =>
      refine iff_of_false (fun hno => hno _ rfl) ?_
      rintro ⟨_, _, _, _, e, heq, herror⟩
      cases heq
      cases hconverted.symm.trans herror

/-- The predicates of a query cannot be given just if it has a bound that is not converted. -/
theorem predicates_error_iff {query : Option Query} (h : ∀ q ∈ query, q.Ordered) :
    (∃ e, predicates query = .error e) ↔ Unconvertible query := by
  have hok : (∃ ps, predicates query = .ok ps) ↔ ∀ a ∈ leaves query, ∃ e, a.expr = .ok e := by
    rw [← (traverses_mapM Atom.expr).exists_ok_iff]
    exact exists_congr fun ps => predicates_eq_ok.trans (traverses_mapM Atom.expr).ok_iff.symm
  rw [exists_error_iff, hok]
  push Not
  simp only [atom_fails_iff]
  cases query with
  | none => simp [Unconvertible, leaves]
  | some q =>
    constructor
    · rintro ⟨a, ha, field, format, op, b, e, rfl, herror⟩
      obtain ⟨p, hp, rfl, hbound⟩ := (bound_mem_leaves_iff (h q rfl)).mp ha
      exact ⟨q, rfl, field, p, hp, op, b, hbound, e, herror⟩
    · rintro ⟨q', hq', field, p, hp, op, b, hbound, e, herror⟩
      cases hq'
      exact ⟨_, (bound_mem_leaves_iff (h q rfl)).mpr ⟨p, hp, rfl, hbound⟩, field, rangeFormat p, op,
        b, e, rfl, herror⟩

/-! ## Plans -/

/-- The label of a node; the hits have none. -/
def Node.label? : Node → Option String
  | .aggregation n => some n.label
  | .hits _ => none

/-- A plan has a node for each aggregation, in the order of labels, and then the hits; under an
aggregation nothing is left out. -/
structure Covers (r : SearchRequest) (p : Plan) : Prop where
  labels : p.nodes.map Node.label? = r.aggs.map (fun e => some e.1) ++ [none]
  ascending : (p.aggregations.map AggregationNode.label).Pairwise (· < ·)
  /-- A node computes a column of its own and one for each aggregation under it. -/
  columns : List.Forall₂ (fun (e : String × Aggregate) (n : AggregationNode) =>
    n.columns.functions.length = 1 + e.2.aggs.length) r.aggs p.aggregations
  /-- Nothing stands two levels under an aggregation. -/
  depth : ∀ e ∈ r.aggs, ∀ sub ∈ e.2.aggs, sub.2.aggs = []

section

variable {index : String} {r : SearchRequest}

/-- Nodes keep the labels of their aggregations. -/
theorem labels_of_planned {ps : List Expr} {aggs : Named Aggregate} {nodes : List AggregationNode}
    (h : List.Forall₂ (Planned index ps) aggs nodes) :
    nodes.map AggregationNode.label = aggs.map Prod.fst := by
  induction h with
  | nil => rfl
  | cons hplanned _ ih =>
    rw [List.map_cons, List.map_cons, ih]
    cases hplanned <;> rfl

/-- A plan covers its request. -/
theorem PlannedWith.covers {p : Plan} {ps : List Expr} (hlabels : r.aggs.Ascending)
    (h : PlannedWith index r p ps) : Covers r p := by
  have hnames := labels_of_planned h.aggregations
  refine ⟨?_, ?_, h.aggregations.imp fun e n hplanned => ?_, fun e he sub hsub => ?_⟩
  · show (p.aggregations.map Node.aggregation ++ [Node.hits p.hits]).map Node.label? = _
    rw [List.map_append, List.map_map]
    show (p.aggregations.map fun n => some n.label) ++ [none] = _
    rw [← Function.comp_def some AggregationNode.label, ← List.map_map, hnames, List.map_map]
    rfl
  · rw [hnames]
    exact List.pairwise_map.mpr hlabels
  · cases hplanned with
    | @buckets _ _ kind subs _ _ hsubs =>
      show (subs.mapIdx _).length + 1 = _
      rw [List.length_mapIdx, hsubs.length_eq, Nat.add_comm]
    | metric _ _ haggs =>
      rw [haggs]
      rfl
  · obtain ⟨n, -, hn⟩ := exists_of_mem_right h.aggregations.flip he
    cases exists_planned_iff.mp ⟨n, hn⟩ with
    | number _ haggs =>
      rw [haggs] at hsub
      cases hsub
    | buckets _ hsubs => exact (hsubs sub hsub).2

/-- A request has a plan just if its predicates can be given and its aggregations are supported. -/
theorem exists_plan_iff : (∃ p, compile index r = .ok p) ↔
    (∃ ps, predicates r.query = .ok ps) ∧ ∀ e ∈ r.aggs, e.2.Supported := by
  constructor
  · rintro ⟨p, hp⟩
    obtain ⟨ps, hps⟩ := compile_eq_ok.mp hp
    refine ⟨⟨ps, predicates_eq_ok.mpr hps.predicates⟩, fun e he => ?_⟩
    obtain ⟨n, -, hn⟩ := exists_of_mem_right hps.aggregations.flip he
    exact exists_planned_iff.mp ⟨n, hn⟩
  · rintro ⟨⟨ps, hps⟩, hall⟩
    obtain ⟨nodes, hnodes⟩ := exists_forall₂ (R := Planned index ps) fun e he =>
      exists_planned_iff.mpr (hall e he)
    exact ⟨⟨nodes, hitsStatement index ps r⟩, compile_eq_ok.mpr
      ⟨ps, predicates_eq_ok.mp hps, hnodes, rfl⟩⟩

/-- The error of a request is that of its predicates, and otherwise that of its aggregations. -/
theorem compile_eq_error {e : Error} : compile index r = .error e ↔
    (∃ d, predicates r.query = .error d ∧ e = .format d) ∨
      ∃ ps, predicates r.query = .ok ps ∧
        ∃ d, compileAggregations index ps r.aggs = .error d ∧ e = .compile d := by
  unfold compile
  rw [bind_eq_error, mapError_eq_error]
  refine or_congr (exists_congr fun d => and_congr_right fun _ => eq_comm) ?_
  refine exists_congr fun ps => and_congr mapError_eq_ok ?_
  rw [bind_eq_error, mapError_eq_error]
  constructor
  · rintro (⟨d, hd, rfl⟩ | ⟨nodes, -, hdone⟩)
    · exact ⟨d, hd, rfl⟩
    · cases hdone
  · rintro ⟨d, hd, rfl⟩
    exact .inl ⟨d, hd, rfl⟩

end

/-- A request fails with a format error just if a bound that takes effect is not converted, otherwise
with a compile error just if an aggregation is not supported, and otherwise it has a plan that covers
it. There are no other errors. -/
theorem compile_outcome {index : String} {r : SearchRequest} (hr : r.Ordered) :
    ((∃ e, compile index r = .error (.format e)) ↔ Unconvertible r.query) ∧
    ((∃ e, compile index r = .error (.compile e)) ↔
      ¬ Unconvertible r.query ∧ ∃ e ∈ r.aggs, ¬ e.2.Supported) ∧
    ((∃ p, compile index r = .ok p) ↔
      ¬ Unconvertible r.query ∧ ∀ e ∈ r.aggs, e.2.Supported) ∧
    (∀ p, compile index r = .ok p → Covers r p) ∧
    ∀ e, compile index r = .error e → e.kind = .format ∨ e.kind = .compile := by
  have hformat : (∃ e, compile index r = .error (.format e)) ↔ Unconvertible r.query := by
    rw [← predicates_error_iff hr.query]
    constructor
    · rintro ⟨e, he⟩
      rcases compile_eq_error.mp he with ⟨d, hd, heq⟩ | ⟨ps, -, d, -, heq⟩
      · exact ⟨d, hd⟩
      · cases heq
    · rintro ⟨d, hd⟩
      exact ⟨d, compile_eq_error.mpr (.inl ⟨d, hd, rfl⟩)⟩
  have hplan : (∃ p, compile index r = .ok p) ↔
      ¬ Unconvertible r.query ∧ ∀ e ∈ r.aggs, e.2.Supported := by
    rw [exists_plan_iff, ← predicates_error_iff hr.query, exists_error_iff, not_not]
  have hkinds : ∀ e, compile index r = .error e → e.kind = .format ∨ e.kind = .compile := by
    intro e he
    rcases compile_eq_error.mp he with ⟨d, -, rfl⟩ | ⟨ps, -, d, -, rfl⟩
    · exact .inl rfl
    · exact .inr rfl
  refine ⟨hformat, ?_, hplan, ?_, hkinds⟩
  · -- What has neither a plan nor a format error has a compile error.
    constructor
    · rintro ⟨e, he⟩
      have hconverted : ¬ Unconvertible r.query := by
        rw [← hformat]
        rintro ⟨d, hd⟩
        cases he.symm.trans hd
      refine ⟨hconverted, ?_⟩
      by_contra hall
      push Not at hall
      obtain ⟨p, hp⟩ := hplan.mpr ⟨hconverted, hall⟩
      cases he.symm.trans hp
    · rintro ⟨hconverted, e, he, hnot⟩
      have hno : ¬ ∃ p, compile index r = .ok p := fun h => hnot ((hplan.mp h).2 e he)
      obtain ⟨d, hd⟩ := exists_error_iff.mpr hno
      rcases compile_eq_error.mp hd with ⟨c, -, rfl⟩ | ⟨ps, -, c, -, rfl⟩
      · exact absurd (hformat.mp ⟨c, hd⟩) hconverted
      · exact ⟨c, hd⟩
  · intro p hp
    obtain ⟨ps, hps⟩ := compile_eq_ok.mp hp
    exact hps.covers hr.labels

/-- The example request has a plan that covers it, so that it has neither fault. -/
theorem compile_outcome_example : exampleRequest.Ordered ∧
    ∃ p, compile "logs" exampleRequest = .ok p ∧ Covers exampleRequest p ∧
      ¬ Unconvertible exampleRequest.query ∧ ∀ e ∈ exampleRequest.aggs, e.2.Supported := by
  obtain ⟨-, -, hplan, hcovers, -⟩ := @compile_outcome "logs" _ exampleRequest_ordered
  exact ⟨exampleRequest_ordered, _, rfl, hcovers _ rfl, hplan.mp ⟨_, rfl⟩⟩

end Plan

end Quarry
