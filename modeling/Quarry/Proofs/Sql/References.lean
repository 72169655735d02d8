/-
# References to rows

Which rows the parts of a statement are about.

* `Expr.references`, `Subselect.references` — the references to rows of tables: the name of the
  table, if it is given.
* `Expr.eval_congr`, `Subselect.eval_congr` — a value depends only on the rows that the references
  are resolved to.
-/
import Quarry.Sql.Evaluate

namespace Quarry.Sql

open Quarry.Request Quarry.Result

/-! ## References -/

/-- The references of an expression to rows: the names of their tables, if they are given. -/
def Expr.references : Expr → List (Option String)
  | .rowid => [none]
  | .document => [none]
  | .field qualifier _ => [qualifier]
  | .coalesce a b => a.references ++ b.references
  | .datetime a => a.references
  | .compare _ a b => a.references ++ b.references
  | .avg a => a.references
  | .max a => a.references
  | _ => []

/-- The references of a statement in the place of one value. -/
def Subselect.references (s : Subselect) : List (Option String) :=
  s.columns.flatMap (fun c => c.expr.references) ++ s.predicates.flatMap Expr.references ++
    s.groups.flatMap Expr.references ++ s.order.flatMap fun k => k.expr.references

/-! ## Values -/

/-- The value of an expression depends only on the rows of its references. -/
theorem Expr.eval_congr {scope scope' : Scope} {e : Expr}
    (h : ∀ q ∈ e.references, scope.find? q = scope'.find? q) : e.eval scope = e.eval scope' := by
  induction e with
  | rowid => rw [Expr.eval, Expr.eval, h none List.mem_cons_self]
  | document => rw [Expr.eval, Expr.eval, h none List.mem_cons_self]
  | field qualifier name => rw [Expr.eval, Expr.eval, h qualifier List.mem_cons_self]
  | coalesce a b iha ihb =>
    rw [Expr.eval, Expr.eval, iha fun q hq => h q (List.mem_append_left _ hq),
      ihb fun q hq => h q (List.mem_append_right _ hq)]
  | datetime a ih => rw [Expr.eval, Expr.eval, ih h]
  | compare op a b iha ihb =>
    rw [Expr.eval, Expr.eval, iha fun q hq => h q (List.mem_append_left _ hq),
      ihb fun q hq => h q (List.mem_append_right _ hq)]
  | _ => rfl

theorem holdsAll_congr {scope scope' : Scope} {ps : List Expr}
    (h : ∀ p ∈ ps, p.eval scope = p.eval scope') : holdsAll scope ps = holdsAll scope' ps := by
  induction ps with
  | nil => rfl
  | cons p rest ih =>
    obtain ⟨hp, hrest⟩ := List.forall_mem_cons.mp h
    rw [holdsAll, holdsAll, hp, ih hrest]

section

variable {α : Type} {f g : α → Scope}

theorem evalEach_congr {e : Expr} (h : ∀ q ∈ e.references, ∀ a, (f a).find? q = (g a).find? q)
    (as : List α) : evalEach e (as.map f) = evalEach e (as.map g) := by
  induction as with
  | nil => rfl
  | cons a rest ih =>
    rw [List.map_cons, List.map_cons, evalEach, evalEach, ih, Expr.eval_congr fun q hq => h q hq a]

/-- The value over a group depends only on the rows of the references in its scopes. -/
theorem Expr.evalGroup_congr {e : Expr} (h : ∀ q ∈ e.references, ∀ a, (f a).find? q = (g a).find? q)
    (as : List α) : e.evalGroup (as.map f) = e.evalGroup (as.map g) := by
  induction e with
  | count => rw [Expr.evalGroup, Expr.evalGroup, List.length_map, List.length_map]
  | avg a => rw [Expr.evalGroup, Expr.evalGroup, evalEach_congr (e := a) h]
  | max a => rw [Expr.evalGroup, Expr.evalGroup, evalEach_congr (e := a) h]
  | coalesce a b iha ihb =>
    rw [Expr.evalGroup, Expr.evalGroup, iha fun q hq => h q (List.mem_append_left _ hq),
      ihb fun q hq => h q (List.mem_append_right _ hq)]
  | datetime a ih => rw [Expr.evalGroup, Expr.evalGroup, ih h]
  | compare op a b iha ihb =>
    rw [Expr.evalGroup, Expr.evalGroup, iha fun q hq => h q (List.mem_append_left _ hq),
      ihb fun q hq => h q (List.mem_append_right _ hq)]
  | _ =>
    -- What is not computed over the group is the value on its first row.
    cases as with
    | nil => rfl
    | cons a rest => exact Expr.eval_congr fun q hq => h q hq a

theorem Subselect.value_congr {columns : List (Column Expr)}
    (h : ∀ c ∈ columns, ∀ q ∈ c.expr.references, ∀ a, (f a).find? q = (g a).find? q) (as : List α) :
    Subselect.value columns (as.map f) = Subselect.value columns (as.map g) := by
  cases columns with
  | nil => rfl
  | cons c rest =>
    have hc := h c List.mem_cons_self
    have hgroup := Expr.evalGroup_congr hc as
    cases as with
    | nil => rfl
    | cons a others =>
      rw [List.map_cons, List.map_cons] at hgroup ⊢
      rw [Subselect.value, Subselect.value, hgroup, Expr.eval_congr fun q hq => hc q hq a]

end

/-- The same rows are found where the predicates have the same values, in each scope. -/
theorem filterRows_congr {name : String} {outer outer' : Scope} {ps : List Expr}
    (h : ∀ p ∈ ps, ∀ d, p.eval (⟨name, d⟩ :: outer) = p.eval (⟨name, d⟩ :: outer'))
    (rows : List TableRow) : ∃ found : Except Failure (List TableRow),
      filterRows name outer ps rows = found.map (List.map fun d => ⟨name, d⟩ :: outer) ∧
      filterRows name outer' ps rows = found.map (List.map fun d => ⟨name, d⟩ :: outer') := by
  induction rows with
  | nil => exact ⟨.ok [], rfl, rfl⟩
  | cons d rest ih =>
    obtain ⟨found, hfound, hfound'⟩ := ih
    have hkeep : holdsAll (⟨name, d⟩ :: outer) ps = holdsAll (⟨name, d⟩ :: outer') ps :=
      holdsAll_congr fun p hp => h p hp d
    rw [filterRows, filterRows, hfound, hfound', hkeep]
    cases holdsAll (⟨name, d⟩ :: outer') ps with
    | error e => exact ⟨.error e, rfl, rfl⟩
    | ok keep =>
      cases found with
      | error e => exact ⟨.error e, rfl, rfl⟩
      | ok ds =>
        refine ⟨.ok (if keep then d :: ds else ds), ?_⟩
        cases keep <;> exact ⟨rfl, rfl⟩

/-- The value of a statement inside a scope depends only on the rows of its references. -/
theorem Subselect.eval_congr {tables : Tables.Lookup} {outer outer' : Scope} {s : Subselect}
    (h : ∀ q ∈ s.references, ∀ source ∈ s.source, ∀ d,
      Scope.find? (⟨source.knownAs, d⟩ :: outer) q = Scope.find? (⟨source.knownAs, d⟩ :: outer') q) :
    Subselect.eval tables outer s = Subselect.eval tables outer' s := by
  have hcolumns : ∀ c ∈ s.columns, ∀ q ∈ c.expr.references, q ∈ s.references := by
    intro c hc q hq
    simp only [Subselect.references, List.append_assoc]
    exact List.mem_append_left _ (List.mem_flatMap.mpr ⟨c, hc, hq⟩)
  have hpredicates : ∀ p ∈ s.predicates, ∀ q ∈ p.references, q ∈ s.references := by
    intro p hp q hq
    simp only [Subselect.references, List.append_assoc]
    exact List.mem_append_right _ (List.mem_append_left _ (List.mem_flatMap.mpr ⟨p, hp, hq⟩))
  unfold Subselect.eval
  cases hsource : s.source with
  | none => rfl
  | some source =>
    cases hrows : tables source.table with
    | none => simp only [sourceRows, hrows]; rfl
    | some rows =>
      have hfind := fun q hq => h q hq source hsource
      have htests : ∀ p ∈ s.predicates, ∀ d, p.eval (⟨source.knownAs, d⟩ :: outer) =
          p.eval (⟨source.knownAs, d⟩ :: outer') :=
        fun p hp d => Expr.eval_congr fun q hq => hfind q (hpredicates p hp q hq) d
      obtain ⟨found, hfound, hfound'⟩ := filterRows_congr htests rows
      simp only [sourceRows, hrows]
      show (do let scopes ← filterRows _ _ _ _; _) = (do let scopes ← filterRows _ _ _ _; _)
      rw [hfound, hfound']
      cases found with
      | error e => rfl
      | ok ds => exact Subselect.value_congr (fun c hc q hq => hfind q (hcolumns c hc q hq)) ds

end Quarry.Sql
