/-
# Limits of plans

Which requests have plans whose statements are not too large.

* `conditionHeight_bounds` — the height of the predicates of a query is their number, and a little
  more.
* `Moderate` — numbers of conditions, sort keys and aggregations that a request may have.
* `compile_isAccepted` — the statements of such a request are accepted.
* `bounds_of_isAccepted` — with one or two conditions more they are not.
-/
import Quarry.Proofs.Plan.Nodes
import Quarry.Proofs.Sql.Runs

namespace Quarry

open Quarry.Outcome Quarry.Request Quarry.Sql

/-! ## Heights -/

namespace Sql

theorem greatestHeight_le {heights : List Nat} {n : Nat} :
    greatestHeight heights ≤ n ↔ ∀ h ∈ heights, h ≤ n := by
  unfold greatestHeight
  induction heights with
  | nil => simp
  | cons h rest ih => rw [List.foldr_cons, max_le_iff, ih, List.forall_mem_cons]

/-- The parts of a statement are not higher than a bound if its predicates, its columns, its groups
and its sort keys are not. -/
theorem Select.heights_le {κ δ : Type} {columnHeight : κ → Nat} {s : Select κ Expr δ} {n : Nat} :
    greatestHeight (s.heights columnHeight) ≤ n ↔
      conditionHeight s.predicates ≤ n ∧ (∀ c ∈ s.columns, columnHeight c.expr ≤ n) ∧
        (∀ e ∈ s.groups, e.height ≤ n) ∧ ∀ k ∈ s.order, k.expr.height ≤ n := by
  rw [greatestHeight_le, heights, List.forall_mem_append, List.forall_mem_append,
    List.forall_mem_cons]
  simp only [List.forall_mem_map, and_assoc]

/-- A single condition: the comparison of a field, or of an instant in it. -/
def IsCondition (p : Expr) : Prop := 3 ≤ p.height ∧ p.height ≤ 4

/-- Every condition after the first adds one to the height. -/
theorem foldl_joinedHeight_bounds {ps : List Expr} (h : ∀ p ∈ ps, IsCondition p) {k height : Nat}
    (hlow : k + 3 ≤ height) (hhigh : height ≤ k + 4) :
    k + ps.length + 3 ≤ ps.foldl (fun height q => joinedHeight height q.height) height ∧
      ps.foldl (fun height q => joinedHeight height q.height) height ≤ k + ps.length + 4 := by
  -- After `k` conditions the height is `k + 3` or `k + 4`, and so it stays with one more.
  induction ps generalizing k height with
  | nil => exact ⟨hlow, hhigh⟩
  | cons p rest ih =>
    obtain ⟨⟨hp, hp'⟩, hrest⟩ := List.forall_mem_cons.mp h
    have hlow' : k + 1 + 3 ≤ joinedHeight height p.height := by
      unfold joinedHeight
      omega
    have hhigh' : joinedHeight height p.height ≤ k + 1 + 4 := by
      unfold joinedHeight
      omega
    have hlength : k + (rest.length + 1) = k + 1 + rest.length := by omega
    have hnext := ih hrest hlow' hhigh'
    rwa [List.foldl_cons, List.length_cons, hlength]

theorem conditionHeight_bounds {ps : List Expr} (h : ∀ p ∈ ps, IsCondition p) :
    ps.length + 2 ≤ conditionHeight ps ∧ conditionHeight ps ≤ ps.length + 3 := by
  cases ps with
  | nil => exact ⟨le_rfl, by decide⟩
  | cons p rest =>
    obtain ⟨⟨hp, hp'⟩, hrest⟩ := List.forall_mem_cons.mp h
    have hbounds := foldl_joinedHeight_bounds hrest (k := 0) hp hp'
    rw [List.length_cons, conditionHeight]
    omega

end Sql

namespace Plan

/-! ## Conditions of queries -/

theorem height_constant_le (l : Literal) : (Expr.constant l).height ≤ 2 := by
  cases l with
  | integer n =>
    rw [Expr.height]
    split <;> decide
  | text s => exact Nat.le_succ 1

theorem isCondition_equality (field value : String) : IsCondition (equality field value) := by
  have hconstant := height_constant_le (.ofText value)
  have hheight : (equality field value).height =
      joinedHeight 2 (Expr.constant (.ofText value)).height := rfl
  rw [IsCondition, hheight, joinedHeight]
  omega

theorem Atom.isCondition {a : Atom} {e : Expr} (h : a.expr = .ok e) : IsCondition e := by
  cases a with
  | equal field value =>
    cases h
    exact isCondition_equality field value
  | bound field format op b =>
    obtain ⟨v, -, hv⟩ := bind_eq_ok.mp h
    cases hv
    exact ⟨show 3 ≤ 4 by decide, le_rfl⟩

/-- What a number is computed from is not high. -/
theorem metricExpr_height_le {kind : AggregateKind} {e : Expr} (he : metricExpr? kind = some e) :
    e.height ≤ 4 := by
  have hinput : ∀ f : FieldAgg, (metricInput f).height ≤ 3 := by
    intro f
    unfold metricInput
    cases f.missing with
    | none => exact Nat.le_succ 2
    | some missing =>
      have hconstant := height_constant_le (.ofText missing)
      show joinedHeight 2 _ ≤ 3
      rw [joinedHeight]
      omega
  cases kind with
  | avg f =>
    cases he
    exact Nat.succ_le_succ (hinput f)
  | max f =>
    cases he
    exact Nat.succ_le_succ (hinput f)
  | terms t => cases he
  | dateHistogram d => cases he

section

variable {query : Option Query} {ps : List Expr}
  (hps : List.Forall₂ (fun (a : Atom) e => a.expr = .ok e) (leaves query) ps)

include hps

theorem isCondition_predicates : ∀ p ∈ ps, IsCondition p := by
  intro p hp
  obtain ⟨a, -, ha⟩ := exists_of_mem_right hps hp
  exact Atom.isCondition ha

/-- The predicates of a query are about as high as it has conditions. -/
theorem predicates_bounds : (leaves query).length + 2 ≤ conditionHeight ps ∧
    conditionHeight ps ≤ (leaves query).length + 3 := by
  rw [hps.length_eq]
  exact conditionHeight_bounds (isCondition_predicates hps)

/-- The statement for a number of each bucket has one condition more. -/
theorem metricSubselect_bounds (index field : String) {kind : AggregateKind} {e : Expr}
    (he : metricExpr? kind = some e) :
    (leaves query).length + 3 ≤ (metricSubselect index ps field e).height ∧
      (metricSubselect index ps field e).height ≤ (leaves query).length + 4 := by
  have hall : ∀ p ∈ ps ++ [correlation field], IsCondition p :=
    List.forall_mem_append.mpr ⟨isCondition_predicates hps,
      List.forall_mem_singleton.mpr ⟨show 3 ≤ 4 by decide, le_rfl⟩⟩
  have hbounds := conditionHeight_bounds hall
  rw [List.length_append, List.length_singleton, ← hps.length_eq] at hbounds
  constructor
  · exact hbounds.1.trans (Select.heights_le (s := metricSubselect index ps field e).mp le_rfl).1
  · refine Select.heights_le.mpr ⟨hbounds.2, ?_, List.forall_mem_nil _, List.forall_mem_nil _⟩
    exact List.forall_mem_singleton.mpr ((metricExpr_height_le he).trans (Nat.le_add_left 4 _))

end

/-! ## Statements of plans -/

section

variable {index label : String} {ps : List Expr}

/-- The statement for the hits is accepted if its text can be read, and neither its predicates nor
its sort keys are too many. -/
theorem isAccepted_hitsStatement_iff {r : SearchRequest} :
    (hitsStatement index ps r).IsAccepted ↔
      (Statement.sql (hitsStatement index ps r)).toList.contains (Char.ofNat 0) = false ∧
        conditionHeight ps ≤ depthLimit ∧ r.sort.length ≤ lengthLimit := by
  have horder : (hitsStatement index ps r).order.length = r.sort.length := List.length_map _
  constructor
  · intro h
    exact ⟨h.text, (Select.heights_le.mp h.depth).1, horder ▸ h.order⟩
  · rintro ⟨htext, hdepth, hsort⟩
    refine ⟨htext, Select.heights_le.mpr ⟨hdepth, ?_, List.forall_mem_nil _, ?_⟩,
      show 2 ≤ lengthLimit by decide, Nat.zero_le _, horder ▸ hsort⟩
    · exact List.forall_mem_cons.mpr ⟨show 1 ≤ depthLimit by decide,
        List.forall_mem_singleton.mpr (show 2 ≤ depthLimit by decide)⟩
    · exact List.forall_mem_map.mpr fun e _ => show 2 ≤ depthLimit by decide

/-- So is the statement for a number. -/
theorem isAccepted_metricNode_iff {d : Definition} {kind : AggregateKind} {e : Expr}
    (he : metricExpr? kind = some e) :
    (metricNode index ps label d e).statement.IsAccepted ↔
      (Statement.sql (metricNode index ps label d e).statement).toList.contains (Char.ofNat 0) =
        false ∧ conditionHeight ps ≤ depthLimit := by
  constructor
  · intro h
    exact ⟨h.text, (Select.heights_le.mp h.depth).1⟩
  · rintro ⟨htext, hdepth⟩
    refine ⟨htext, Select.heights_le.mpr ⟨hdepth, ?_, List.forall_mem_nil _, List.forall_mem_nil _⟩,
      show 1 ≤ lengthLimit by decide, Nat.zero_le _, Nat.zero_le _⟩
    exact List.forall_mem_singleton.mpr
      ((metricExpr_height_le he).trans (show 4 ≤ depthLimit by decide))

/-- The statement for buckets is, if the numbers of each bucket are not too many, and the statements
for them are at most half as high as a statement may be. -/
theorem isAccepted_bucketNode_iff {d : Definition} {kind : AggregateKind} {limit : Option Nat}
    {subs : List (Definition × Subselect)} :
    (bucketNode index ps label d kind.bucketOrder limit subs).statement.IsAccepted ↔
      (Statement.sql (bucketNode index ps label d kind.bucketOrder limit
        subs).statement).toList.contains (Char.ofNat 0) = false ∧
      conditionHeight ps ≤ depthLimit ∧ (∀ x ∈ subs, 2 * x.2.height + 1 ≤ depthLimit) ∧
        subs.length + 2 ≤ lengthLimit := by
  have hlength : (bucketNode index ps label d kind.bucketOrder limit
      subs).statement.columns.length = subs.length + 2 := by
    simp [bucketNode]
  have hinner : ∀ s : Subselect, (Output.subselect s).depth = 2 * s.height + 1 := by
    intro s
    rw [Output.depth]
    omega
  constructor
  · intro h
    obtain ⟨hdepth, hcolumns, -⟩ := Select.heights_le.mp h.depth
    refine ⟨h.text, hdepth, fun x hx => ?_, hlength ▸ h.columns⟩
    obtain ⟨i, hi⟩ := List.mem_iff_getElem?.mp hx
    rw [← hinner]
    exact hcolumns _ (mem_columns_bucketNode.mpr (.inr (.inr ⟨i, x, hi, rfl⟩)))
  · rintro ⟨htext, hdepth, hsubs, hcount⟩
    refine ⟨htext, Select.heights_le.mpr ⟨hdepth, fun c hc => ?_,
      List.forall_mem_singleton.mpr (show 1 ≤ depthLimit by decide), fun o ho => ?_⟩,
      hlength.symm ▸ hcount, show 1 ≤ lengthLimit by decide, ?_⟩
    · rcases mem_columns_bucketNode.mp hc with rfl | rfl | ⟨i, x, hx, rfl⟩
      · exact show 2 ≤ depthLimit by decide
      · exact show 1 ≤ depthLimit by decide
      · rw [hinner]
        exact hsubs x (List.mem_of_getElem? hx)
    · rcases expr_of_mem_bucketOrder ho with hexpr | hexpr
      · rw [hexpr]
        exact show 1 ≤ depthLimit by decide
      · rw [hexpr]
        exact show 1 ≤ depthLimit by decide
    · show kind.bucketOrder.length ≤ lengthLimit
      cases kind with
      | terms t => exact show 2 ≤ lengthLimit by decide
      | dateHistogram d => exact show 1 ≤ lengthLimit by decide
      | avg f => exact show 1 ≤ lengthLimit by decide
      | max f => exact show 1 ≤ lengthLimit by decide

end

/-! ## Requests -/

/-- Numbers of conditions, sort keys and aggregations that a request may have, whatever they are. -/
structure Moderate (r : SearchRequest) : Prop where
  conditions : (leaves r.query).length ≤ 997
  /-- Beside numbers for each bucket only half as many conditions may stand. -/
  correlated : ∀ e ∈ r.aggs, e.2.aggs ≠ [] → (leaves r.query).length ≤ 495
  numbers : ∀ e ∈ r.aggs, e.2.aggs.length ≤ 1998
  sort : r.sort.length ≤ 2000

section

variable {index : String} {r : SearchRequest} {p : Plan} (hplan : compile index r = .ok p)

include hplan

/-- The statements of such a request are accepted if they can be read up to their ends. -/
theorem compile_isAccepted (hr : Moderate r)
    (htext : ∀ n ∈ p.nodes, n.sql.toList.contains (Char.ofNat 0) = false) :
    ∀ n ∈ p.nodes, n.statement.IsAccepted := by
  obtain ⟨ps, hplanned⟩ := compile_eq_ok.mp hplan
  have hdepth : conditionHeight ps ≤ depthLimit := by
    have hle := (predicates_bounds hplanned.predicates).2
    have := hr.conditions
    unfold depthLimit
    omega
  intro n hn
  have hzero : (Statement.sql n.statement).toList.contains (Char.ofNat 0) = false := htext n hn
  rcases mem_nodes.mp hn with ⟨node, hnode, rfl⟩ | rfl
  · obtain ⟨e, he, hnode⟩ := exists_of_mem_right hplanned.aggregations hnode
    cases hnode with
    | @buckets label a kind subs _ _ hsubs =>
      refine isAccepted_bucketNode_iff.mpr ⟨hzero, hdepth, fun x hx => ?_, ?_⟩
      · obtain ⟨sub, hsub, hx⟩ := exists_of_mem_right hsubs hx
        cases hx with
        | intro _ hmetric _ =>
          have hle := (metricSubselect_bounds hplanned.predicates index kind.field hmetric).2
          -- The statement counts twice: as a part of its column, and once more by itself.
          have := hr.correlated _ he (List.ne_nil_of_mem hsub)
          show 2 * (metricSubselect index ps kind.field _).height + 1 ≤ 1000
          omega
      · rw [← hsubs.length_eq]
        exact Nat.add_le_add_right (hr.numbers _ he) 2
    | metric _ hmetric _ => exact (isAccepted_metricNode_iff hmetric).mpr ⟨hzero, hdepth⟩
  · rw [show (Node.hits p.hits).statement = p.hits from rfl, hplanned.hits] at hzero ⊢
    exact isAccepted_hitsStatement_iff.mpr ⟨hzero, hdepth, hr.sort⟩

/-- With more than one condition more, they are not. -/
theorem bounds_of_isAccepted (h : ∀ n ∈ p.nodes, n.statement.IsAccepted) :
    (leaves r.query).length ≤ 998 ∧
      (∀ e ∈ r.aggs, e.2.aggs ≠ [] → (leaves r.query).length ≤ 496) ∧
      (∀ e ∈ r.aggs, e.2.aggs.length ≤ 1998) ∧ r.sort.length ≤ 2000 := by
  obtain ⟨ps, hplanned⟩ := compile_eq_ok.mp hplan
  have hhits := h (.hits p.hits) (hits_mem_nodes p)
  rw [show (Node.hits p.hits).statement = p.hits from rfl, hplanned.hits,
    isAccepted_hitsStatement_iff] at hhits
  obtain ⟨-, hdepth, hsort⟩ := hhits
  have hnumbers : ∀ e ∈ r.aggs, (e.2.aggs ≠ [] → (leaves r.query).length ≤ 496) ∧
      e.2.aggs.length ≤ 1998 := by
    intro e he
    obtain ⟨node, hnode, hplannedNode⟩ := exists_of_mem_right hplanned.aggregations.flip he
    have haccepted := h (.aggregation node) (aggregation_mem_nodes hnode)
    cases hplannedNode with
    | @buckets label a kind subs _ _ hsubs =>
      obtain ⟨-, -, hheights, hcount⟩ := isAccepted_bucketNode_iff.mp haccepted
      rw [← hsubs.length_eq] at hcount
      refine ⟨fun hne => ?_, Nat.le_of_add_le_add_right hcount⟩
      obtain ⟨sub, hsub⟩ := List.exists_mem_of_ne_nil _ hne
      obtain ⟨x, hx, hplannedSub⟩ := exists_of_mem_right hsubs.flip hsub
      have hheight := hheights x hx
      cases hplannedSub with
      | intro _ hmetric _ =>
        have hle := (metricSubselect_bounds hplanned.predicates index kind.field hmetric).1
        have hlimit : 2 * (metricSubselect index ps kind.field _).height + 1 ≤ 1000 := hheight
        omega
    | metric _ _ hnone => simp [hnone]
  have hle := (predicates_bounds hplanned.predicates).1
  have hlimit : conditionHeight ps ≤ 1000 := hdepth
  exact ⟨by omega, fun e he => (hnumbers e he).1, fun e he => (hnumbers e he).2, hsort⟩

end

end Plan

end Quarry
