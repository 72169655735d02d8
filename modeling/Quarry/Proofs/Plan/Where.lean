/-
# What plans ask of documents

* `conjunction` — the text of predicates that must all hold.
* `MeansQuery` — the statements of a plan ask for what a query means, and for nothing else.
* `compile_meansQuery` — every plan does, for the query of its request.
-/
import Quarry.Proofs.Plan.Nodes

namespace Quarry

open Quarry.Outcome Quarry.Request Quarry.Sql

/-! ## Text -/

namespace Sql

/-- The text of predicates that must all hold; without any, one that always does. -/
def conjunction (ps : List Expr) : String :=
  if ps = [] then "1 = 1" else separated " AND " (ps.map Expr.sql)

section

variable {κ : Type} (column : κ → String) (s : Select κ Expr SortDirection)

/-- The text of a statement in front of its predicates. -/
def Select.textBefore : String :=
  "SELECT " ++ separated ", " (s.columns.map fun c => column c.expr ++ " AS " ++ c.name) ++
    " FROM " ++ (s.source.map Source.sql).getD ""

/-- The text of a statement behind its predicates. -/
def Select.textAfter : String :=
  SelectText.groupSql (s.groups.map Expr.sql) ++
    (SelectText.orderSql (s.order.map fun k => ⟨k.expr.sql, k.direction.keyword⟩) ++
      SelectText.limitSql s.limit s.offset)

/-- The predicates stand in the text of a statement as their conjunction. -/
theorem Select.text_eq : SelectText.sql (s.mapParts column Expr.sql SortDirection.keyword) =
    s.textBefore column ++ " WHERE " ++ conjunction s.predicates ++ s.textAfter := by
  have hwhere : SelectText.whereSql (s.predicates.map Expr.sql) =
      " WHERE " ++ conjunction s.predicates := by
    unfold conjunction
    cases s.predicates with
    | nil => rfl
    | cons e rest =>
      rw [if_neg (List.cons_ne_nil e rest)]
      rfl
  simp only [SelectText.sql, Select.mapParts, Select.textBefore, Select.textAfter, List.map_map,
    hwhere, String.append_assoc]
  rfl

end

end Sql

namespace Plan

/-! ## Statements -/

/-- Every statement of a plan has the predicates of the query. -/
theorem PlannedWith.predicates_eq {index : String} {r : SearchRequest} {p : Plan}
    {ps : List Expr} (h : PlannedWith index r p ps) {n : Node} (hn : n ∈ p.nodes) :
    n.statement.predicates = ps := by
  rcases mem_nodes.mp hn with ⟨node, hnode, rfl⟩ | rfl
  · obtain ⟨a, -, hplanned⟩ := exists_of_mem_right h.aggregations hnode
    cases hplanned <;> rfl
  · show p.hits.predicates = ps
    rw [h.hits]
    rfl

/-- A statement in the place of a value is the number of a bucket, whose key is the first column. -/
theorem PlannedWith.subselect_eq {index : String} {r : SearchRequest} {p : Plan}
    {ps : List Expr} (h : PlannedWith index r p ps) {n : Node} (hn : n ∈ p.nodes) {s : Subselect}
    (hs : Output.subselect s ∈ n.statement.columns.map Column.expr) :
    ∃ field e, n.statement.columns.head? = some ⟨.expr (.field none field), groupName 0⟩ ∧
      s = metricSubselect index ps field e := by
  rcases mem_nodes.mp hn with ⟨node, hnode, rfl⟩ | rfl
  · obtain ⟨a, -, hplanned⟩ := exists_of_mem_right h.aggregations hnode
    cases hplanned with
    | @buckets label a kind subs hkind hbucket hsubs =>
      obtain ⟨c, hc, hexpr⟩ := List.mem_map.mp hs
      -- Neither the key nor the count is a statement of its own.
      rcases mem_columns_bucketNode.mp hc with rfl | rfl | ⟨i, x, hx, rfl⟩
      · cases hexpr
      · cases hexpr
      · obtain ⟨entry, -, hsub⟩ := exists_of_mem_right hsubs (List.mem_of_getElem? hx)
        cases hsub with
        | intro hkind' he haggs =>
          cases hexpr
          exact ⟨kind.field, _, rfl, rfl⟩
    | metric hkind he haggs =>
      obtain ⟨c, hc, hexpr⟩ := List.mem_map.mp hs
      obtain rfl := List.mem_singleton.mp hc
      cases hexpr
  · have hhits : Output.subselect s ∈ (hitsStatement index ps r).columns.map Column.expr := by
      rw [← h.hits]
      exact hs
    simp [hitsStatement] at hhits

/-! ## Meaning -/

/-- What a query of a request means; without a query, nothing is asked. -/
def Holds (T : Atom → Prop) : Option Query → Prop
  | some q => q.Holds T
  | none => True

theorem holds_iff_leaves {T : Atom → Prop} (query : Option Query) :
    Holds T query ↔ ∀ a ∈ leaves query, T a := by
  cases query with
  | none => simp [Holds, leaves]
  | some q => exact q.holds_iff_leaves

/-- The statements of a plan ask for what a query means, and for nothing else. -/
structure MeansQuery (query : Option Query) (p : Plan) (ps : List Expr) : Prop where
  /-- The predicates are the comparisons of the query, one for each and in their order. -/
  leaves : List.Forall₂ (fun (a : Atom) e => a.expr = .ok e) (leaves query) ps
  /-- Every statement has these predicates, and they stand in its text as a conjunction. -/
  statement : ∀ n ∈ p.nodes, n.statement.predicates = ps ∧
    n.sql = n.statement.textBefore Output.sql ++ " WHERE " ++ conjunction ps ++
      n.statement.textAfter
  /-- Every statement in the place of a value has these predicates, and one more that ties it to
  the key of its bucket. -/
  subselect : ∀ n ∈ p.nodes, ∀ s : Subselect,
    Output.subselect s ∈ n.statement.columns.map Column.expr →
    ∃ field, n.statement.columns.head? = some ⟨.expr (.field none field), groupName 0⟩ ∧
      s.predicates = ps ++ [correlation field] ∧
      Subselect.sql s = s.textBefore Expr.sql ++ " WHERE " ++
        conjunction (ps ++ [correlation field]) ++ s.textAfter
  /-- Whichever comparisons hold, the predicates all hold exactly when the query does. -/
  meaning : ∀ V : Expr → Prop,
    (∀ e ∈ ps, V e) ↔ Holds (fun a => ∃ e, a.expr = .ok e ∧ V e) query

/-- Predicates that stand opposite comparisons hold when those do. -/
theorem forall_predicates_iff {atoms : List Atom} {ps : List Expr}
    (h : List.Forall₂ (fun (a : Atom) e => a.expr = .ok e) atoms ps) (V : Expr → Prop) :
    (∀ e ∈ ps, V e) ↔ ∀ a ∈ atoms, ∃ e, a.expr = .ok e ∧ V e := by
  induction h with
  | nil => simp
  | @cons a e atoms ps hae _ ih =>
    have hone : (∃ e', a.expr = .ok e' ∧ V e') ↔ V e := by
      rw [hae]
      simp
    rw [List.forall_mem_cons, List.forall_mem_cons, ih, hone]

/-- A plan asks for what the query means. -/
theorem PlannedWith.meansQuery {index : String} {r : SearchRequest} {p : Plan} {ps : List Expr}
    (h : PlannedWith index r p ps) : MeansQuery r.query p ps where
  leaves := h.predicates
  statement n hn := by
    have hps := h.predicates_eq hn
    refine ⟨hps, ?_⟩
    rw [← hps]
    exact Select.text_eq Output.sql n.statement
  subselect n hn s hs := by
    obtain ⟨field, e, hkey, rfl⟩ := h.subselect_eq hn hs
    exact ⟨field, hkey, rfl, Select.text_eq Expr.sql _⟩
  meaning V := by
    rw [holds_iff_leaves]
    exact forall_predicates_iff h.predicates V

/-- A query in the order of names stays as it is. -/
theorem map_sorted_eq {query : Option Query} (h : ∀ q ∈ query, q.Ordered) :
    query.map Query.sorted = query := by
  cases query with
  | none => rfl
  | some q => rw [Option.map_some, (h q rfl).sorted_eq]

/-- Every plan asks for what the query of its request means, its fields taken in the order of their
names. -/
theorem compile_meansQuery {index : String} {r : SearchRequest} {p : Plan} (hr : r.Ordered)
    (h : compile index r = .ok p) :
    ∃ ps, MeansQuery (r.query.map Query.sorted) p ps := by
  obtain ⟨ps, hps⟩ := compile_eq_ok.mp h
  rw [map_sorted_eq hr.query]
  exact ⟨ps, hps.meansQuery⟩

/-- The plan of the example asks for what its query means. -/
theorem compile_meansQuery_example : exampleRequest.Ordered ∧
    ∃ p, compile "logs" exampleRequest = .ok p ∧
      ∃ ps, MeansQuery (exampleRequest.query.map Query.sorted) p ps :=
  ⟨exampleRequest_ordered, _, rfl, compile_meansQuery exampleRequest_ordered rfl⟩

end Plan

end Quarry
