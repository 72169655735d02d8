/-
# The tables of statements

* `Statement.ReadsOnly` — a statement reads one table, also where others stand in the places of its
  values.
* `Statement.run_congr` — its result depends on the rows of that table only.
* `PlannedWith.readsOnly` — the statements of a plan read the table of their index.
-/
import Quarry.Proofs.Plan.Where
import Quarry.Sql.Evaluate

namespace Quarry

open Quarry.Outcome Quarry.Result

namespace Sql

variable {tables tables' : Tables.Lookup} {table : String}

theorem sourceRows_congr (h : tables table = tables' table) {source : Option Source}
    (hsource : ∀ s ∈ source, s.table = table) :
    sourceRows tables source = sourceRows tables' source := by
  cases source with
  | none => rfl
  | some s => rw [sourceRows, sourceRows, hsource s rfl, h]

namespace Statement

/-- A statement reads one table only, also inside the statements in the places of values. -/
structure ReadsOnly (table : String) (s : Statement) : Prop where
  source : ∀ x ∈ s.source, x.table = table
  inner : ∀ c ∈ s.columns, ∀ inner, c.expr = .subselect inner → ∀ x ∈ inner.source, x.table = table

section

variable (h : tables table = tables' table) {columns : List (Column Output)}
  (hinner : ∀ c ∈ columns, ∀ inner, c.expr = .subselect inner →
    ∀ x ∈ inner.source, x.table = table)

include h hinner

theorem evalColumns_congr (group : List Scope) :
    evalColumns tables group columns = evalColumns tables' group columns := by
  induction columns with
  | nil => rfl
  | cons c rest ih =>
    obtain ⟨hc, hrest⟩ := List.forall_mem_cons.mp hinner
    have hvalue : c.expr.evalGroup tables group = c.expr.evalGroup tables' group := by
      cases hexpr : c.expr with
      | expr e => rfl
      | subselect inner =>
        rw [Output.evalGroup, Output.evalGroup, Subselect.eval, Subselect.eval,
          sourceRows_congr h (hc inner hexpr)]
    rw [evalColumns, evalColumns, hvalue, ih hrest]

theorem evalGroups_congr (groups : List (List Scope)) :
    evalGroups tables columns groups = evalGroups tables' columns groups := by
  induction groups with
  | nil => rfl
  | cons group rest ih => rw [evalGroups, evalGroups, evalColumns_congr h hinner, ih]

theorem checkInner_congr : checkInner tables columns = checkInner tables' columns := by
  induction columns with
  | nil => rfl
  | cons c rest ih =>
    obtain ⟨hc, hrest⟩ := List.forall_mem_cons.mp hinner
    obtain ⟨expr, name⟩ := c
    cases expr with
    | expr e => exact ih hrest
    | subselect inner => rw [checkInner, checkInner, sourceRows_congr h (hc inner rfl), ih hrest]

end

/-- The result of a statement depends on the rows of its table only. -/
theorem run_congr (h : tables table = tables' table) {s : Statement} (hs : s.ReadsOnly table) :
    run tables s = run tables' s := by
  have hrunOn : runOn tables s = runOn tables' s := by
    funext w name rows
    unfold runOn
    simp only [evalGroups_congr h hs.inner, evalColumns_congr h hs.inner]
  unfold run
  rw [sourceRows_congr h hs.source, checkInner_congr h hs.inner, hrunOn]

end Statement

end Sql

/-! ## Plans -/

namespace Plan

open Quarry.Sql

/-- The statements of a plan read the table of their index only. -/
theorem PlannedWith.readsOnly {index : String} {r : Request.SearchRequest} {p : Plan}
    {ps : List Expr} (h : PlannedWith index r p ps) {n : Node} (hn : n ∈ p.nodes) :
    Statement.ReadsOnly index n.statement where
  source := by
    rcases mem_nodes.mp hn with ⟨node, hnode, rfl⟩ | rfl
    · obtain ⟨a, -, hplanned⟩ := exists_of_mem_right h.aggregations hnode
      cases hplanned <;> exact fun x hx => by cases hx; rfl
    · intro x hx
      rw [Node.statement, h.hits] at hx
      cases hx
      rfl
  inner c hc inner hexpr x hx := by
    obtain ⟨field, e, -, rfl⟩ := h.subselect_eq hn (List.mem_map.mpr ⟨c, hc, hexpr⟩)
    cases hx
    rfl

end Plan

end Quarry
