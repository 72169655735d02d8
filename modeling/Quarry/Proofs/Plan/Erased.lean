/-
# What has no effect

A request keeps all that was read, but planning looks at a part of it only.

* `RangeParams.erase`, `Query.erase`, `Aggregate.erase`, `SearchRequest.erase` — a request without
  the parts that planning does not look at.
* `SearchRequest.Bare` — whether a request has no such part.
* `Query.leaves_erase` — a query asks for the same comparisons without them.
* `compile_erase` — the plan of a request, or the error, is that of the request without them.
-/
import Quarry.Engine.Basic
import Quarry.Proofs.Plan.Leaves

namespace Quarry

open Quarry.Plan Quarry.Request Quarry.Sql

namespace Request

/-! ## Erasure -/

/-- A term without its options. -/
def TermValue.erase (t : TermValue) : TermValue := { value := t.value }

/-- A match without its options. -/
def MatchValue.erase (m : MatchValue) : MatchValue := { query := m.query }

/-- A range without the bounds that others shadow, the flags that belong to no bound, and its
boost. -/
def RangeParams.erase (p : RangeParams) : RangeParams :=
  let lowerFrom := if p.gte.isSome || p.gt.isSome then none else p.lowerFrom
  let upperTo := if p.lte.isSome || p.lt.isSome then none else p.upperTo
  { gte := p.gte
    gt := if p.gte.isSome then none else p.gt
    lte := p.lte
    lt := if p.lte.isSome then none else p.lt
    lowerFrom := lowerFrom
    upperTo := upperTo
    format := p.format
    includeLower := if lowerFrom.isSome then p.includeLower else none
    includeUpper := if upperTo.isSome then p.includeUpper else none }

/-- The entry whose name comes first. -/
def firstByName {α : Type} (l : Named α) : Named α :=
  l.filter fun e => l.all fun other => !decide (other.1 < e.1)

mutual

/-- A query without the kinds that another one shadows, and without what has no effect in the kind
that is left. -/
def Query.erase : Query → Query
  | ⟨_, _, some b, _, _⟩ => { bool := some (eraseBool b) }
  | ⟨some fields, _, none, _, _⟩ => { term := some (fields.mapValues TermValue.erase) }
  | ⟨none, some fields, none, _, _⟩ => { matching := some (fields.mapValues MatchValue.erase) }
  | ⟨none, none, none, some fields, _⟩ =>
    { range := some ((firstByName fields).mapValues RangeParams.erase) }
  | ⟨none, none, none, none, _⟩ => {}

/-- Combined queries without those that are not under `must`. -/
def eraseBool : BoolQuery Query → BoolQuery Query
  | ⟨must, _, _⟩ => { must := eraseAll must }

/-- Several queries without what has no effect in each. -/
def eraseAll : List Query → List Query
  | [] => []
  | q :: rest => q.erase :: eraseAll rest

end

/-- A date histogram without the settings of its intervals. -/
def DateHistogramAgg.erase (d : DateHistogramAgg) : DateHistogramAgg := { field := d.field }

mutual

/-- An aggregation without what has no effect, and those under it likewise. -/
def Aggregate.erase : Aggregate → Aggregate
  | ⟨terms, dateHistogram, avg, max, aggs⟩ =>
    ⟨terms, dateHistogram.map DateHistogramAgg.erase, avg, max, eraseUnder aggs⟩

/-- The aggregations under one without what has no effect. -/
def eraseUnder : List (String × Aggregate) → List (String × Aggregate)
  | [] => []
  | (label, a) :: rest => (label, a.erase) :: eraseUnder rest

end

/-- A request without what has no effect. -/
def SearchRequest.erase (r : SearchRequest) : SearchRequest :=
  { r with query := r.query.map Query.erase, aggs := eraseUnder r.aggs }

/-! ## Requests without such parts -/

/-- Whether a term has no options. -/
def TermValue.Bare (t : TermValue) : Prop := t.boost = none ∧ t.caseInsensitive = none

/-- Whether a match has no options. -/
def MatchValue.Bare (m : MatchValue) : Prop := m.fuzziness = none ∧ m.operator = none

/-- Whether a range has one bound on each side at most, flags only for bounds of old clients, and no
boost. -/
structure RangeParams.Bare (p : RangeParams) : Prop where
  lower : p.gte = none ∧ p.gt = none ∨ p.gte = none ∧ p.lowerFrom = none ∨
    p.gt = none ∧ p.lowerFrom = none
  upper : p.lte = none ∧ p.lt = none ∨ p.lte = none ∧ p.upperTo = none ∨
    p.lt = none ∧ p.upperTo = none
  includeLower : p.lowerFrom = none → p.includeLower = none
  includeUpper : p.upperTo = none → p.includeUpper = none
  boost : p.boost = none

/-- Whether a query has one kind at most, and nothing in it that has no effect. -/
inductive Query.Bare : Query → Prop
  | bool (must : List Query) (h : ∀ q ∈ must, Bare q) : Bare { bool := some { must := must } }
  | term (fields : Named TermValue) (h : ∀ e ∈ fields, e.2.Bare) : Bare { term := some fields }
  | matching (fields : Named MatchValue) (h : ∀ e ∈ fields, e.2.Bare) :
    Bare { matching := some fields }
  | range (fields : Named RangeParams) (hone : fields.length ≤ 1) (h : ∀ e ∈ fields, e.2.Bare) :
    Bare { range := some fields }
  | matchAll : Bare {}

/-- Whether date histograms have no settings of intervals, in an aggregation and under it. -/
inductive Aggregate.Bare : Aggregate → Prop
  | intro (a : Aggregate) :
    (∀ d ∈ a.dateHistogram, d.buckets = none ∧ d.fixedInterval = none ∧
      d.calendarInterval = none) → (∀ e ∈ a.aggs, Aggregate.Bare e.2) → Bare a

/-- Whether a request has no part without effect. -/
structure SearchRequest.Bare (r : SearchRequest) : Prop where
  query : ∀ q ∈ r.query, q.Bare
  aggs : ∀ e ∈ r.aggs, e.2.Bare

/-! ## Erased requests are bare -/

theorem RangeParams.bare_erase (p : RangeParams) : p.erase.Bare := by
  obtain ⟨gt, gte, lt, lte, lowerFrom, upperTo, format, includeLower, includeUpper, boost⟩ := p
  refine ⟨?_, ?_, ?_, ?_, rfl⟩
  · cases gte <;> cases gt <;> simp [RangeParams.erase]
  · cases lte <;> cases lt <;> simp [RangeParams.erase]
  · intro h
    simp only [RangeParams.erase] at h ⊢
    rw [h]
    rfl
  · intro h
    simp only [RangeParams.erase] at h ⊢
    rw [h]
    rfl

theorem eraseAll_eq (qs : List Query) : eraseAll qs = qs.map Query.erase := by
  induction qs with
  | nil => rfl
  | cons q rest ih => rw [eraseAll, ih, List.map_cons]

theorem eraseUnder_eq (l : List (String × Aggregate)) :
    eraseUnder l = l.map fun (label, a) => (label, a.erase) := by
  induction l with
  | nil => rfl
  | cons entry rest ih => rw [eraseUnder, ih, List.map_cons]

/-- In the order of names the first name comes before the others. -/
theorem firstByName_cons {α : Type} {name : String} {a : α} {rest : Named α}
    (h : Named.Ascending ((name, a) :: rest)) : firstByName ((name, a) :: rest) = [(name, a)] := by
  obtain ⟨hfirst, -⟩ := List.pairwise_cons.mp h
  have hkept : ((name, a) :: rest).all (fun other => !decide (other.1 < name)) = true := by
    simp only [List.all_cons, lt_self_iff_false, decide_false, Bool.not_false, Bool.true_and,
      List.all_eq_true, Bool.not_eq_true', decide_eq_false_iff_not]
    exact fun other hother => lt_asymm (hfirst other hother)
  have hdropped : rest.filter (fun e => ((name, a) :: rest).all
      fun other => !decide (other.1 < e.1)) = [] := by
    refine List.filter_eq_nil_iff.mpr fun e he hall => ?_
    have hself := List.all_eq_true.mp hall (name, a) List.mem_cons_self
    simp [hfirst e he] at hself
  rw [firstByName, List.filter_cons, if_pos hkept, hdropped]

theorem Query.Ordered.bare_erase {q : Query} (h : q.Ordered) : q.erase.Bare := by
  induction h with
  | intro q hterm hmatching hrange _ ih =>
    obtain ⟨term, matching, bool, range, queryString⟩ := q
    cases bool with
    | some b =>
      obtain ⟨must, should, filter⟩ := b
      rw [Query.erase, eraseBool, eraseAll_eq]
      exact .bool _ (List.forall_mem_map.mpr (ih _ rfl))
    | none =>
      cases term with
      | some fields => exact .term _ (List.forall_mem_map.mpr fun e _ => ⟨rfl, rfl⟩)
      | none =>
        cases matching with
        | some fields => exact .matching _ (List.forall_mem_map.mpr fun e _ => ⟨rfl, rfl⟩)
        | none =>
          cases range with
          | none => exact .matchAll
          | some fields =>
            refine .range _ ?_ (List.forall_mem_map.mpr fun e _ => e.2.bare_erase)
            cases fields with
            | nil => exact Nat.zero_le 1
            | cons entry rest =>
              rw [firstByName_cons (hrange _ rfl)]
              exact Nat.le_refl 1

theorem Aggregate.Ordered.bare_erase {a : Aggregate} (h : a.Ordered) : a.erase.Bare := by
  induction h with
  | intro a _ _ ih =>
    obtain ⟨terms, dateHistogram, avg, max, aggs⟩ := a
    refine .intro _ ?_ ?_
    · intro d hd
      obtain ⟨d', -, rfl⟩ := Option.map_eq_some_iff.mp hd
      exact ⟨rfl, rfl, rfl⟩
    · show ∀ e ∈ eraseUnder aggs, _
      rw [eraseUnder_eq]
      exact List.forall_mem_map.mpr ih

theorem SearchRequest.Ordered.bare_erase {r : SearchRequest} (h : r.Ordered) : r.erase.Bare := by
  refine ⟨fun q hq => ?_, ?_⟩
  · obtain ⟨q', hq', rfl⟩ := Option.map_eq_some_iff.mp hq
    exact (h.query q' hq').bare_erase
  · show ∀ e ∈ eraseUnder r.aggs, _
    rw [eraseUnder_eq]
    exact List.forall_mem_map.mpr fun e he => (h.aggs e he).bare_erase

/-! ## Queries ask the same -/

theorem RangeParams.effectiveUpper_erase (p : RangeParams) :
    p.erase.effectiveUpper = p.effectiveUpper := by
  obtain ⟨gt, gte, lt, lte, lowerFrom, upperTo, format, includeLower, includeUpper, boost⟩ := p
  cases lte <;> cases lt <;> cases upperTo <;> rfl

theorem RangeParams.effectiveLower_erase (p : RangeParams) :
    p.erase.effectiveLower = p.effectiveLower := by
  obtain ⟨gt, gte, lt, lte, lowerFrom, upperTo, format, includeLower, includeUpper, boost⟩ := p
  cases gte <;> cases gt <;> cases lowerFrom <;> rfl

/-- A range asks for the same comparisons without its later fields and without what has no effect in
the first one. -/
theorem rangeLeaves_erase {fields : Named RangeParams} (h : fields.Ascending) :
    rangeLeaves ((firstByName fields).mapValues RangeParams.erase) = rangeLeaves fields := by
  cases fields with
  | nil => rfl
  | cons entry rest =>
    obtain ⟨field, p⟩ := entry
    rw [firstByName_cons h]
    show ((p.erase.effectiveUpper.toList ++ p.erase.effectiveLower.toList).map _) = _
    rw [p.effectiveUpper_erase, p.effectiveLower_erase]
    rfl

/-- A query asks for the same comparisons without what has no effect. -/
theorem Query.Ordered.leaves_erase {q : Query} (h : q.Ordered) : q.erase.leaves = q.leaves := by
  induction h with
  | intro q hterm hmatching hrange _ ih =>
    obtain ⟨term, matching, bool, range, queryString⟩ := q
    cases bool with
    | some b =>
      obtain ⟨must, should, filter⟩ := b
      rw [Query.erase, eraseBool, eraseAll_eq, Query.leaves, boolLeaves, allLeaves_eq, Query.leaves,
        boolLeaves, allLeaves_eq, List.flatMap_map]
      exact List.flatMap_congr (ih _ rfl)
    | none =>
      cases term with
      | some fields => exact List.map_map
      | none =>
        cases matching with
        | some fields => exact List.map_map
        | none =>
          cases range with
          | some fields => exact rangeLeaves_erase (hrange _ rfl)
          | none => rfl

/-! ## Aggregations do the same -/

/-- A kind of aggregation without what has no effect. -/
def AggregateKind.erase : AggregateKind → AggregateKind
  | .dateHistogram d => .dateHistogram d.erase
  | k => k

theorem Aggregate.kinds_erase (a : Aggregate) :
    a.erase.kinds = a.kinds.map AggregateKind.erase := by
  obtain ⟨terms, dateHistogram, avg, max, aggs⟩ := a
  cases terms <;> cases dateHistogram <;> cases avg <;> cases max <;> rfl

theorem Aggregate.kind_erase (a : Aggregate) : a.erase.kind = a.kind.map AggregateKind.erase := by
  rw [Aggregate.kind, Aggregate.kinds_erase, Aggregate.kind]
  match a.kinds with
  | [] => rfl
  | [_] => rfl
  | _ :: _ :: ks => simp [Except.map]

theorem Aggregate.aggs_erase (a : Aggregate) : a.erase.aggs = eraseUnder a.aggs := by
  cases a
  rfl

end Request

namespace Plan

theorem checkNothingUnder_eraseUnder (l : List (String × Aggregate)) :
    checkNothingUnder (eraseUnder l) = checkNothingUnder l := by
  cases l <;> rfl

theorem compileSub_erase (index : String) (ps : List Expr) (field label : String) (a : Aggregate) :
    compileSub index ps field label a.erase = compileSub index ps field label a := by
  unfold compileSub
  rw [a.kind_erase, a.aggs_erase, checkNothingUnder_eraseUnder]
  cases a.kind with
  | error e => rfl
  | ok k => cases k <;> rfl

theorem compileSubs_eraseUnder (index : String) (ps : List Expr) (field : String)
    (l : List (String × Aggregate)) :
    compileSubs index ps field (eraseUnder l) = compileSubs index ps field l := by
  induction l with
  | nil => rfl
  | cons entry rest ih =>
    rw [eraseUnder, compileSubs, compileSubs, compileSub_erase, ih]

theorem compileAggregation_erase (index : String) (ps : List Expr) (label : String)
    (a : Aggregate) :
    compileAggregation index ps label a.erase = compileAggregation index ps label a := by
  unfold compileAggregation
  rw [a.kind_erase, a.aggs_erase]
  cases a.kind with
  | error e => rfl
  | ok k =>
    simp only [compileSubs_eraseUnder, checkNothingUnder_eraseUnder]
    cases k <;> rfl

theorem compileAggregations_eraseUnder (index : String) (ps : List Expr)
    (l : List (String × Aggregate)) :
    compileAggregations index ps (eraseUnder l) = compileAggregations index ps l := by
  induction l with
  | nil => rfl
  | cons entry rest ih =>
    rw [eraseUnder, compileAggregations, compileAggregations, compileAggregation_erase, ih]

theorem predicates_erase {query : Option Query} (h : ∀ q ∈ query, q.Ordered) :
    predicates (query.map Query.erase) = predicates query := by
  cases query with
  | none => rfl
  | some q =>
    show queryPredicates q.erase = queryPredicates q
    rw [queryPredicates_eq, queryPredicates_eq, (h q rfl).leaves_erase]

end Plan

/-- The parts of a request that planning does not look at have no effect, whatever they are. A request
without them has the same plan, or fails with the same error; and requests that differ in them only
have the same plan, or fail with the same error, and are answered alike. Requests that are read are in
order, by `SearchRequest.ofBytes_ordered`. -/
theorem compile_erase {r : SearchRequest} (hr : r.Ordered) (index : String) :
    r.erase.Bare ∧ compile index r.erase = compile index r ∧
    ∀ r' : SearchRequest, r'.Ordered → r'.erase = r.erase →
      compile index r' = compile index r ∧ Engine.search index r' = Engine.search index r := by
  have hplan : ∀ {r : SearchRequest}, r.Ordered → compile index r.erase = compile index r := by
    intro r hr
    unfold compile
    show ((predicates (r.query.map Query.erase)).mapError _ >>= fun ps =>
      (compileAggregations index ps (eraseUnder r.aggs)).mapError _ >>= _) = _
    simp only [predicates_erase hr.query, compileAggregations_eraseUnder]
    rfl
  -- Both plans are that of the one request that is left.
  refine ⟨hr.bare_erase, hplan hr, fun r' hr' herase => ?_⟩
  have hsame : compile index r' = compile index r := by rw [← hplan hr', herase, hplan hr]
  refine ⟨hsame, ?_⟩
  rw [Engine.search, Engine.search, hsame]

/-- A range with a bound that is no count. -/
def halfRange : RangeParams where
  gte := some ⟨"1.5", true⟩

/-- A request for spans with much that has no effect. -/
def crowdedRequest : SearchRequest where
  query := some {
    term := some [("host", { value := "a", boost := some "2" })]
    bool := some {
      must := [{ range := some [
        ("endTime", { halfRange with gte := some (.ofInt 2), gt := halfRange.gte, boost := some "2" }),
        ("startTime", halfRange)] }]
      should := [{ range := some [("startTime", halfRange)] }] }
    queryString := some { query := "host:b" } }
  aggs := [("ends", {
    dateHistogram := some { field := "endTime", calendarInterval := some "day" } })]

/-- The request without that. -/
def plainRequest : SearchRequest where
  query := some {
    bool := some { must := [{ range := some [("endTime", { gte := some (.ofInt 2) })] }] } }
  aggs := [("ends", { dateHistogram := some { field := "endTime" } })]

/-- The plan of the one is the plan of the other, though no range could be planned that has the bound
where it has an effect. -/
theorem compile_erase_example :
    crowdedRequest.Ordered ∧ crowdedRequest.erase = plainRequest ∧
    compile "spans" plainRequest = compile "spans" crowdedRequest ∧
    ∃ e, predicates (some { range := some [("startTime", halfRange)] }) = .error e := by
  have hordered : crowdedRequest.Ordered := by
    refine ⟨?_, by decide, ?_⟩
    · rintro q ⟨⟩
      refine .intro _ (by rintro t ⟨⟩; decide) nofun nofun ?_
      rintro b ⟨⟩ p hp
      obtain rfl := List.mem_singleton.mp hp
      exact .intro _ nofun nofun (by rintro l ⟨⟩; decide) nofun
    · intro e he
      obtain rfl := List.mem_singleton.mp he
      exact .intro _ Named.ascending_nil nofun
  exact ⟨hordered, rfl, (compile_erase hordered "spans").2.1, _, rfl⟩

end Quarry
