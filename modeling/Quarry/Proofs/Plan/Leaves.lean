/-
# Leaves of queries

What a query asks of a document, as a list of single comparisons.

* `Atom` — a field equals a value, or keeps to a bound. `Atom.expr` — the predicate for it.
* `Query.leaves` — the comparisons of a query in their order.
* `Query.sorted` — a query with its fields in the order of names.
* `Query.Holds` — what a query means once it is settled which comparisons hold.
* `queryPredicates_eq` — the predicates of a query are those of its leaves.
-/
import Quarry.Plan.Predicate
import Quarry.Proofs.Request.Ordered

namespace Quarry

open Quarry.Date Quarry.Outcome Quarry.Request Quarry.Sql

/-! ## Induction over queries -/

/-- What holds of a query if it holds of those under its `must` holds of every query. -/
theorem Request.Query.inductionOnMust {P : Query → Prop}
    (h : ∀ q : Query, (∀ b ∈ q.bool, ∀ p ∈ b.must, P p) → P q) (q : Query) : P q := by
  refine h q fun b hb p hp => Query.inductionOnMust h p
termination_by sizeOf q
decreasing_by
  obtain ⟨term, matching, bool, range, queryString⟩ := q
  obtain ⟨must, should, filter⟩ := b
  obtain rfl : bool = some ⟨must, should, filter⟩ := hb
  have hlt : sizeOf p < sizeOf must := List.sizeOf_lt_of_mem hp
  simp only [Query.mk.sizeOf_spec, Option.some.sizeOf_spec, BoolQuery.mk.sizeOf_spec]
  omega

/-! ## Bounds that take effect -/

namespace Request.RangeParams

/-- The upper bound that takes effect: the first of `lte`, `lt` and the old form. -/
def effectiveUpper (p : RangeParams) : Option (RangeOp × Bound) :=
  p.lte.map (.lte, ·) <|> p.lt.map (.lt, ·) <|>
    p.upperTo.map (if p.includeUpper = some false then .lt else .lte, ·)

/-- The lower bound that takes effect: the first of `gte`, `gt` and the old form. -/
def effectiveLower (p : RangeParams) : Option (RangeOp × Bound) :=
  p.gte.map (.gte, ·) <|> p.gt.map (.gt, ·) <|>
    p.lowerFrom.map (if p.includeLower = some false then .gt else .gte, ·)

theorem upper_eq (p : RangeParams) : p.upper = p.effectiveUpper := by
  obtain ⟨gt, gte, lt, lte, lowerFrom, upperTo, format, includeLower, includeUpper, boost⟩ := p
  cases lte <;> cases lt <;> cases upperTo <;> rfl

theorem lower_eq (p : RangeParams) : p.lower = p.effectiveLower := by
  obtain ⟨gt, gte, lt, lte, lowerFrom, upperTo, format, includeLower, includeUpper, boost⟩ := p
  cases gte <;> cases gt <;> cases lowerFrom <;> rfl

end Request.RangeParams

namespace Plan

/-! ## Single comparisons -/

/-- A single comparison that a query asks of a document. -/
inductive Atom where
  /-- A field equals a value. -/
  | equal (field value : String)
  /-- A field keeps to a bound. -/
  | bound (field : String) (format : DateFormat) (op : RangeOp) (b : Bound)
  deriving DecidableEq

/-- The predicate for a comparison; the bound of a range has to be converted for it. -/
def Atom.expr : Atom → Except FormatError Expr
  | .equal field value => .ok (equality field value)
  | .bound field format op b => boundPredicate field format op b

/-! ## Leaves -/

/-- The comparisons of a range: for its first field, the upper bound and then the lower one. -/
def rangeLeaves : Named RangeParams → List Atom
  | [] => []
  | (field, p) :: _ =>
    (p.effectiveUpper.toList ++ p.effectiveLower.toList).map fun (op, b) =>
      .bound field (rangeFormat p) op b

end Plan

open Plan

namespace Request

mutual

/-- The comparisons of a query: `bool` before `term` before `match` before `range`. -/
def Query.leaves : Query → List Atom
  | ⟨_, _, some b, _, _⟩ => boolLeaves b
  | ⟨some fields, _, none, _, _⟩ => fields.map fun (field, t) => .equal field t.value
  | ⟨none, some fields, none, _, _⟩ => fields.map fun (field, m) => .equal field m.query
  | ⟨none, none, none, some fields, _⟩ => rangeLeaves fields
  | ⟨none, none, none, none, _⟩ => []

/-- The comparisons of combined queries. -/
def boolLeaves : BoolQuery Query → List Atom
  | ⟨must, _, _⟩ => allLeaves must

/-- The comparisons of several queries, one after another. -/
def allLeaves : List Query → List Atom
  | [] => []
  | q :: rest => q.leaves ++ allLeaves rest

end

/-- The comparisons of several queries are those of each. -/
theorem allLeaves_eq (qs : List Query) : allLeaves qs = qs.flatMap Query.leaves := by
  induction qs with
  | nil => rfl
  | cons q rest ih => rw [allLeaves, ih, List.flatMap_cons]

/-- The comparisons of a query are those of the clause that takes effect. -/
theorem Query.leaves_eq (q : Query) : q.leaves =
    match q.clause with
    | .bool b => b.must.flatMap Query.leaves
    | .term fields => fields.map fun (field, t) => .equal field t.value
    | .matching fields => fields.map fun (field, m) => .equal field m.query
    | .range fields => rangeLeaves fields
    | .matchAll => [] := by
  obtain ⟨term, matching, bool, range, queryString⟩ := q
  cases bool with
  | some b =>
    obtain ⟨must, should, filter⟩ := b
    exact allLeaves_eq must
  | none =>
    cases term with
    | some fields => rfl
    | none =>
      cases matching with
      | some fields => rfl
      | none => cases range <;> rfl

/-! ## Meaning -/

/-- What a range means: both bounds of its first field hold. -/
def rangeHolds (T : Atom → Prop) : Named RangeParams → Prop
  | [] => True
  | (field, p) :: _ =>
    (∀ u ∈ p.effectiveUpper, T (.bound field (rangeFormat p) u.1 u.2)) ∧
      ∀ l ∈ p.effectiveLower, T (.bound field (rangeFormat p) l.1 l.2)

mutual

/-- What a query means once it is settled which comparisons hold. -/
def Query.Holds (T : Atom → Prop) : Query → Prop
  | ⟨_, _, some b, _, _⟩ => boolHolds T b
  | ⟨some fields, _, none, _, _⟩ => ∀ e ∈ fields, T (.equal e.1 e.2.value)
  | ⟨none, some fields, none, _, _⟩ => ∀ e ∈ fields, T (.equal e.1 e.2.query)
  | ⟨none, none, none, some fields, _⟩ => rangeHolds T fields
  | ⟨none, none, none, none, _⟩ => True

/-- What combined queries mean: all those under `must` hold. -/
def boolHolds (T : Atom → Prop) : BoolQuery Query → Prop
  | ⟨must, _, _⟩ => allHold T must

/-- All of several queries hold. -/
def allHold (T : Atom → Prop) : List Query → Prop
  | [] => True
  | q :: rest => q.Holds T ∧ allHold T rest

end

/-- All of several queries hold when each does. -/
theorem allHold_iff {T : Atom → Prop} {qs : List Query} :
    allHold T qs ↔ ∀ q ∈ qs, q.Holds T := by
  induction qs with
  | nil => simp [allHold]
  | cons q rest ih => rw [allHold, ih, List.forall_mem_cons]

/-- The meaning of a query is that of the clause that takes effect. -/
theorem Query.holds_iff {T : Atom → Prop} (q : Query) : q.Holds T ↔
    match q.clause with
    | .bool b => ∀ p ∈ b.must, p.Holds T
    | .term fields => ∀ e ∈ fields, T (.equal e.1 e.2.value)
    | .matching fields => ∀ e ∈ fields, T (.equal e.1 e.2.query)
    | .range fields => rangeHolds T fields
    | .matchAll => True := by
  obtain ⟨term, matching, bool, range, queryString⟩ := q
  cases bool with
  | some b =>
    obtain ⟨must, should, filter⟩ := b
    exact allHold_iff
  | none =>
    cases term with
    | some fields => exact Iff.rfl
    | none =>
      cases matching with
      | some fields => exact Iff.rfl
      | none => cases range <;> exact Iff.rfl

/-- The clause that takes effect is the combined queries when there are some. -/
theorem Query.bool_of_clause {q : Query} {b : BoolQuery Query} (h : q.clause = .bool b) :
    q.bool = some b := by
  obtain ⟨term, matching, bool, range, queryString⟩ := q
  cases bool with
  | some c =>
    obtain rfl := Clause.bool.inj h
    rfl
  | none => cases term <;> cases matching <;> cases range <;> cases h

/-- A range holds when all its comparisons do. -/
theorem rangeHolds_iff {T : Atom → Prop} (fields : Named RangeParams) :
    rangeHolds T fields ↔ ∀ a ∈ rangeLeaves fields, T a := by
  cases fields with
  | nil => simp [rangeHolds, rangeLeaves]
  | cons entry rest =>
    simp only [rangeHolds, rangeLeaves, List.map_append, List.forall_mem_append, List.forall_mem_map,
      Option.mem_toList, Option.mem_def]

/-- A query holds when all its comparisons do. -/
theorem Query.holds_iff_leaves {T : Atom → Prop} (q : Query) :
    q.Holds T ↔ ∀ a ∈ q.leaves, T a := by
  induction q using Query.inductionOnMust with
  | h q ih =>
    rw [q.holds_iff, q.leaves_eq]
    -- Only combined queries have others under them, for which the hypothesis speaks.
    cases hc : q.clause with
    | bool b =>
      simp only [List.mem_flatMap]
      constructor
      · rintro h a ⟨p, hp, ha⟩
        exact (ih b (q.bool_of_clause hc) p hp).mp (h p hp) a ha
      · intro h p hp
        exact (ih b (q.bool_of_clause hc) p hp).mpr fun a ha => h a ⟨p, hp, ha⟩
    | term fields => simp only [List.forall_mem_map]
    | matching fields => simp only [List.forall_mem_map]
    | range fields => exact rangeHolds_iff fields
    | matchAll => simp

/-! ## Fields in the order of names -/

mutual

/-- A query with the fields of each kind in the order of names, as under `must`. -/
def Query.sorted : Query → Query
  | ⟨term, matching, some b, range, queryString⟩ =>
    ⟨term.map Named.ofList, matching.map Named.ofList, some (sortedBool b),
      range.map Named.ofList, queryString⟩
  | ⟨term, matching, none, range, queryString⟩ =>
    ⟨term.map Named.ofList, matching.map Named.ofList, none, range.map Named.ofList, queryString⟩

/-- Combined queries with their fields in the order of names. -/
def sortedBool : BoolQuery Query → BoolQuery Query
  | ⟨must, should, filter⟩ => ⟨sortedAll must, should, filter⟩

/-- Several queries with their fields in the order of names. -/
def sortedAll : List Query → List Query
  | [] => []
  | q :: rest => q.sorted :: sortedAll rest

end

/-- Things by name that are in order stay as they are. -/
theorem map_ofList_eq_self {α : Type} {o : Option (Named α)} (h : ∀ l ∈ o, l.Ascending) :
    o.map Named.ofList = o := by
  cases o with
  | none => rfl
  | some l => rw [Option.map_some, Named.ofList_eq_self (h l rfl)]

/-- Queries of which each stays as it is do so together. -/
theorem sortedAll_eq_self {qs : List Query} (h : ∀ q ∈ qs, q.sorted = q) : sortedAll qs = qs := by
  induction qs with
  | nil => rfl
  | cons q rest ih =>
    rw [sortedAll, h q List.mem_cons_self, ih fun p hp => h p (List.mem_cons_of_mem q hp)]

/-- A query that is in order stays as it is. -/
theorem Query.Ordered.sorted_eq {q : Query} (h : q.Ordered) : q.sorted = q := by
  induction h with
  | intro q hterm hmatching hrange _ ih =>
    obtain ⟨term, matching, bool, range, queryString⟩ := q
    cases bool with
    | none =>
      rw [Query.sorted, map_ofList_eq_self hterm, map_ofList_eq_self hmatching,
        map_ofList_eq_self hrange]
    | some b =>
      obtain ⟨must, should, filter⟩ := b
      rw [Query.sorted, map_ofList_eq_self hterm, map_ofList_eq_self hmatching,
        map_ofList_eq_self hrange, sortedBool, sortedAll_eq_self (ih _ rfl)]

end Request

/-! ## Predicates -/

namespace Plan

/-- The predicates of a list of queries are those of each. -/
theorem allPredicates_eq {qs : List Query}
    (h : ∀ q ∈ qs, queryPredicates q = q.leaves.mapM Atom.expr) :
    allPredicates qs = (qs.flatMap Query.leaves).mapM Atom.expr := by
  induction qs with
  | nil => rfl
  | cons q rest ih =>
    rw [allPredicates, List.flatMap_cons, List.mapM_append, h q List.mem_cons_self,
      ih fun p hp => h p (List.mem_cons_of_mem q hp)]

/-- The predicates of a list of values are those of each. -/
theorem mapM_equal {α : Type} (fields : Named α) (value : α → String) :
    (fields.map fun (field, a) => Atom.equal field (value a)).mapM Atom.expr =
      .ok (fields.map fun (field, a) => equality field (value a)) := by
  induction fields with
  | nil => rfl
  | cons entry rest ih =>
    rw [List.map_cons, List.mapM_cons, ih]
    rfl

/-- The predicates of a range are those of its leaves. -/
theorem rangePredicates_eq (fields : Named RangeParams) :
    rangePredicates fields = (rangeLeaves fields).mapM Atom.expr := by
  cases fields with
  | nil => rfl
  | cons entry rest =>
    obtain ⟨field, p⟩ := entry
    rw [rangePredicates, rangeLeaves, p.upper_eq, p.lower_eq]
    cases p.effectiveUpper <;> cases p.effectiveLower <;> rfl

/-- The predicates of a query are those of its leaves. -/
theorem queryPredicates_eq (q : Query) : queryPredicates q = q.leaves.mapM Atom.expr := by
  induction q using Query.inductionOnMust with
  | h q ih =>
    obtain ⟨term, matching, bool, range, queryString⟩ := q
    cases bool with
    | some b =>
      obtain ⟨must, should, filter⟩ := b
      rw [queryPredicates, boolPredicates, allPredicates_eq (ih _ rfl), Query.leaves, boolLeaves,
        allLeaves_eq]
    | none =>
      cases term with
      | some fields => exact (mapM_equal fields TermValue.value).symm
      | none =>
        cases matching with
        | some fields => exact (mapM_equal fields MatchValue.query).symm
        | none =>
          cases range with
          | some fields => exact rangePredicates_eq fields
          | none => rfl

/-- The comparisons that a request asks for; without a query, none. -/
def leaves : Option Query → List Atom
  | some q => q.leaves
  | none => []

/-- The predicates of a request are those of its leaves. -/
theorem predicates_eq_ok {query : Option Query} {ps : List Expr} :
    predicates query = .ok ps ↔
      List.Forall₂ (fun (a : Atom) e => a.expr = .ok e) (leaves query) ps := by
  have hmap : predicates query = (leaves query).mapM Atom.expr := by
    cases query with
    | none => rfl
    | some q => exact queryPredicates_eq q
  rw [hmap]
  exact (traverses_mapM Atom.expr).ok_iff

end Plan

end Quarry
