/-
# Statements for one number

What the statement for one number gives, and what is made of it.

* `found_eq_matched` — the rows that a statement is about are the documents that the query asks for.
* `metricNode_run_eq_ok` — its result is one row with the number over these documents.
* `assemble_metricNode` — the number becomes the result of the aggregation.
-/
import Quarry.Proofs.Plan.Partition
import Quarry.Proofs.Result.Planned

namespace Quarry.Plan

open Quarry.Outcome Quarry.Request Quarry.Result Quarry.Sql

section

variable {index : String} {query : Option Query} {ps : List Expr}
  (hps : List.Forall₂ (fun (a : Atom) e => a.expr = .ok e) (leaves query) ps)

include hps

open Classical in
/-- The rows of which the predicates for a query hold are the documents that it asks for. -/
theorem filter_passes_eq_matched (name : String) (rows : List TableRow) :
    rows.filter (fun d => passes ps [⟨name, d⟩]) = matched query rows := by
  unfold matched
  apply List.filter_congr
  intro d _
  rw [Bool.eq_iff_iff, passes_iff, holdsAll_eq_true, holdsAll_eq_true_iff hps, decide_eq_true_eq]

/-- The rows found for a query are the documents that it asks for. -/
theorem found_eq_matched (name : String) (rows : List TableRow) :
    found name [] ps rows = (matched query rows).map fun d => [⟨name, d⟩] := by
  rw [found, filter_passes_eq_matched hps]

/-- The statement for a number gives one row with the number over the documents that the query asks
for, if it is accepted and the query can be tested on each document. -/
theorem metricNode_run_eq_ok {tables : Tables.Lookup} {rows : List TableRow}
    (hrows : tables index = some rows) {label : String} {d : Definition} {kind : AggregateKind}
    {e : Expr} (he : metricExpr? kind = some e) {result : List Row} :
    (metricNode index ps label d e).statement.run tables = .ok result ↔
      (metricNode index ps label d e).statement.IsAccepted ∧
      (∀ r ∈ rows, ∃ b, holdsAll [⟨index, r⟩] ps = .ok b) ∧
      ∃ c, metricOver kind (matched query rows) = .ok c ∧ result = [[(functionName 0, c)]] := by
  have hany : (metricNode index ps label d e).statement.columns.any
      (fun c => c.expr.isAggregate) = true := by
    rw [List.any_eq_true]
    exact ⟨_, List.mem_singleton_self _, isAggregate_metric he⟩
  have hvalue : ∀ c, e.evalGroup (found index [] ps rows) = .ok c ↔
      metricOver kind (matched query rows) = .ok c := by
    intro c
    rw [found_eq_matched hps, evalGroup_eq_metricOver he]
  rw [Statement.run_eq_ok]
  refine and_congr_right fun _ => ?_
  constructor
  · rintro ⟨name, rows', w, hsource, -, hw, hrun⟩
    rw [show sourceRows tables (metricNode index ps label d e).statement.source = .ok (index, rows)
      from sourceRows_eq_ok hrows] at hsource
    cases hsource
    cases hw
    unfold Statement.runOn at hrun
    rw [if_neg nofun, if_neg nofun, if_pos hany] at hrun
    obtain ⟨scopes, hscopes, hrun⟩ := bind_eq_ok.mp hrun
    obtain ⟨htested, rfl⟩ := filterRows_eq_ok.mp hscopes
    obtain ⟨row, hrow, hrun⟩ := bind_eq_ok.mp hrun
    obtain ⟨c, hc, hrow⟩ := bind_eq_ok.mp hrow
    cases hrow
    cases hrun
    exact ⟨htested, c, (hvalue c).mp hc, rfl⟩
  · rintro ⟨htested, c, hc, rfl⟩
    refine ⟨index, rows, ⟨0, none⟩, sourceRows_eq_ok hrows, rfl, rfl, ?_⟩
    unfold Statement.runOn
    rw [if_neg nofun, if_neg nofun, if_pos hany]
    refine bind_eq_ok.mpr ⟨_, filterRows_eq_ok.mpr ⟨htested, rfl⟩, ?_⟩
    exact bind_eq_ok.mpr ⟨[(functionName 0, c)], bind_eq_ok.mpr ⟨c, (hvalue c).mpr hc, rfl⟩, rfl⟩

/-- It gives one if the documents can be read and the paths of fields have no mistakes. -/
theorem metricNode_total {tables : Tables.Lookup} {rows : List TableRow}
    (hrows : tables index = some rows) (hdocuments : ∀ d ∈ rows, IsDocument d.content)
    (hquery : ∀ a ∈ leaves query, FieldAccepted a.field) (label : String) {d : Definition}
    {kind : AggregateKind} {e : Expr} (he : metricExpr? kind = some e)
    (hkind : FieldAccepted kind.field)
    (haccepted : (metricNode index ps label d e).statement.IsAccepted) :
    ∃ c, (metricNode index ps label d e).statement.run tables = .ok [[(functionName 0, c)]] := by
  have htested : ∀ r ∈ rows, ∃ b, holdsAll [⟨index, r⟩] ps = .ok b := fun r hr =>
    holdsAll_total (predicates_total hps (hdocuments r hr) hquery index [])
  have hmatched : ∀ d ∈ matched query rows, IsDocument d.content :=
    fun d hd => hdocuments d (List.mem_of_mem_filter hd)
  obtain ⟨c, hc⟩ := metricOver_total kind hmatched hkind
  exact ⟨c, (metricNode_run_eq_ok hps hrows he).mpr ⟨haccepted, htested, c, hc, rfl⟩⟩

end

/-- The one number is the result. -/
theorem assemble_metricNode (index : String) (ps : List Expr) (label : String) (d : Definition)
    (e : Expr) (c : Cell) :
    assembleAggregation (metricNode index ps label d e) [[(functionName 0, c)]] =
      .ok (.metric c.toJson) := by
  have hcell : cell [(functionName 0, c)] (functionName 0) = .ok c :=
    cell_eq_ok.mpr (by simp [Row.get?])
  show (cell [(functionName 0, c)] (functionName 0)).map (Aggregation.metric ·.toJson) = _
  rw [hcell]
  rfl

end Quarry.Plan
