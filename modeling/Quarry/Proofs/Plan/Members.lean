/-
# Documents of buckets

Which documents a query asks for, which of them are in one bucket, and what numbers are computed
from them.

* `Satisfies` — a document has what a query asks for. `AreDocuments` — rows of which this can be
  settled at any time.
* `counted` — the documents of the bucket of a key.
* `metricOver` — the number of an aggregation over documents.
* `metricSubselect_eval` — the statement for a number of a bucket computes it from the documents of
  the bucket if their key is not missing, and from no documents otherwise.
-/
import Quarry.Proofs.Plan.Where
import Quarry.Proofs.Sql.Rows

namespace Quarry.Plan

open Quarry.Outcome Quarry.Request Quarry.Result Quarry.Sql

/-! ## Comparisons -/

/-- The field that a comparison looks at. -/
def Atom.field : Atom → String
  | .equal field _ => field
  | .bound field _ _ _ => field

/-- A comparison holds of a document. -/
def Atom.HoldsOf (d : TableRow) : Atom → Prop
  | .equal field value => ∃ c, fieldCell d.content field = .ok c ∧
      isTrue (compareCells .eq c (Literal.ofText value).cell) = true
  | .bound field format op b => ∃ c v, fieldCell d.content field = .ok c ∧
      format.toCanonical b.toJson = .ok v ∧
      isTrue (compareCells (comparisonOf op) (datetimeCell c)
        (datetimeCell (.text (boundText v)))) = true

/-- A document has what a query asks for. -/
def Satisfies (query : Option Query) (d : TableRow) : Prop := Holds (Atom.HoldsOf d) query

/-- A comparison does not ask for the present instant, neither in a document nor in its bound. -/
def Atom.IsTimeless (d : TableRow) : Atom → Prop
  | .equal _ _ => True
  | .bound field format _ b =>
    (∀ s, fieldCell d.content field = .ok (.text s) → asksForNow s = false) ∧
      ∀ v, format.toCanonical b.toJson = .ok v → asksForNow (boundText v) = false

/-- Rows hold documents, and what a query asks of them does not depend on the present instant. -/
structure AreDocuments (query : Option Query) (rows : List TableRow) : Prop where
  documents : ∀ d ∈ rows, IsDocument d.content
  timeless : ∀ d ∈ rows, ∀ a ∈ leaves query, a.IsTimeless d

/-- The predicate for a comparison tests the field of the innermost row. -/
theorem Atom.eval_expr {a : Atom} {e : Expr} (h : a.expr = .ok e) :
    ∃ test : Cell → Cell,
      (∀ (d : TableRow) (name : String) (outer : Scope),
        e.eval (⟨name, d⟩ :: outer) = (fieldCell d.content a.field).map test) ∧
      ∀ d, a.HoldsOf d ↔ ∃ c, fieldCell d.content a.field = .ok c ∧ isTrue (test c) = true := by
  cases a with
  | equal field value =>
    cases h
    refine ⟨fun c => compareCells .eq c (Literal.ofText value).cell, ?_, fun d => Iff.rfl⟩
    intro d name outer
    show (do let x ← fieldCell d.content field; _) = (fieldCell d.content field).map _
    cases fieldCell d.content field <;> rfl
  | bound field format op b =>
    obtain ⟨v, hv, h⟩ := bind_eq_ok.mp h
    cases h
    refine ⟨fun c => compareCells (comparisonOf op) (datetimeCell c)
      (datetimeCell (.text (boundText v))), ?_, ?_⟩
    · intro d name outer
      show (do let x ← (fieldCell d.content field).map datetimeCell; _) =
        (fieldCell d.content field).map _
      cases fieldCell d.content field <;> rfl
    · intro d
      constructor
      · rintro ⟨c, w, hc, hw, htrue⟩
        rw [hv] at hw
        cases hw
        exact ⟨c, hc, htrue⟩
      · rintro ⟨c, hc, htrue⟩
        exact ⟨c, v, hc, hv, htrue⟩

section

variable {query : Option Query} {ps : List Expr}
  (hps : List.Forall₂ (fun (a : Atom) e => a.expr = .ok e) (leaves query) ps)

include hps

/-- The predicates for a query hold of a row when its document has what the query asks for. -/
theorem holdsAll_eq_true_iff (d : TableRow) (name : String) (outer : Scope) :
    (∀ p ∈ ps, ∃ c, p.eval (⟨name, d⟩ :: outer) = .ok c ∧ isTrue c = true) ↔
      Satisfies query d := by
  rw [forall_predicates_iff hps, Satisfies, holds_iff_leaves]
  have hone : ∀ a ∈ leaves query,
      (∃ e, a.expr = .ok e ∧ ∃ c, e.eval (⟨name, d⟩ :: outer) = .ok c ∧ isTrue c = true) ↔
        a.HoldsOf d := by
    intro a ha
    constructor
    · rintro ⟨e, he, c, hc, htrue⟩
      obtain ⟨test, heval, hholds⟩ := Atom.eval_expr he
      rw [heval d name outer] at hc
      obtain ⟨x, hx, rfl⟩ := map_eq_ok.mp hc
      exact (hholds d).mpr ⟨x, hx, htrue⟩
    · intro hholdsOf
      obtain ⟨i, hi⟩ := List.mem_iff_getElem?.mp ha
      obtain ⟨e, -, he⟩ := getElem?_of_forall₂ hps hi
      obtain ⟨test, heval, hholds⟩ := Atom.eval_expr he
      obtain ⟨x, hx, htrue⟩ := (hholds d).mp hholdsOf
      refine ⟨e, he, test x, ?_, htrue⟩
      rw [heval d name outer]
      exact map_eq_ok.mpr ⟨x, hx, rfl⟩
  exact forall₂_congr hone

/-- The predicates for a query have values on every document. -/
theorem predicates_total {d : TableRow} (hd : IsDocument d.content)
    (hfields : ∀ a ∈ leaves query, FieldAccepted a.field) (name : String) (outer : Scope) :
    ∀ p ∈ ps, ∃ c, p.eval (⟨name, d⟩ :: outer) = .ok c := by
  intro p hp
  obtain ⟨a, ha, he⟩ := exists_of_mem_right hps hp
  obtain ⟨test, heval, -⟩ := Atom.eval_expr he
  obtain ⟨c, hc⟩ := fieldCell_total hd (hfields a ha)
  refine ⟨test c, ?_⟩
  rw [heval d name outer]
  exact map_eq_ok.mpr ⟨c, hc, rfl⟩

end

/-! ## Buckets -/

/-- A document has a value of a key in a field. -/
def HasKey (field : String) (key : SortKey) (d : TableRow) : Prop :=
  ∃ c, fieldCell d.content field = .ok c ∧ sortKey c = key

open Classical in
/-- The documents of a bucket: those with what a query asks for whose values in the grouping field
have the key of the bucket. -/
noncomputable def counted (query : Option Query) (field : String) (key : SortKey)
    (rows : List TableRow) : List TableRow :=
  rows.filter fun d => Satisfies query d ∧ HasKey field key d

/-! ## Numbers -/

/-- What a number takes from a document: the value of its field, or what stands in for it. -/
def metricValue (f : FieldAgg) (d : TableRow) : Except Failure Cell :=
  (fieldCell d.content f.field).map fun c =>
    match f.missing with
    | some missing => coalesceCells c (Literal.ofText missing).cell
    | none => c

/-- The number of an aggregation over documents. -/
def metricOver : AggregateKind → List TableRow → Except Failure Cell
  | .avg f, ds => (ds.mapM (metricValue f)).map mean
  | .max f, ds => (ds.mapM (metricValue f)).map greatest
  | _, _ => .ok .null

/-- What a number is computed from is the value that it takes from the innermost row. -/
theorem metricInput_eval (f : FieldAgg) (d : TableRow) (name : String) (outer : Scope) :
    (metricInput f).eval (⟨name, d⟩ :: outer) = metricValue f d := by
  unfold metricInput metricValue
  cases f.missing with
  | none =>
    show fieldCell d.content f.field = _
    cases fieldCell d.content f.field <;> rfl
  | some missing =>
    show (do let x ← fieldCell d.content f.field; _) = _
    cases fieldCell d.content f.field with
    | error e => rfl
    | ok c =>
      show (if isMissing c then _ else _) = Except.ok (coalesceCells c _)
      unfold coalesceCells
      split <;> rfl

/-- The values on several rows are those that a number takes from their documents. -/
theorem evalEach_metricInput (f : FieldAgg) (name : String) (outer : Scope) (ds : List TableRow) :
    evalEach (metricInput f) (ds.map fun d => ⟨name, d⟩ :: outer) = ds.mapM (metricValue f) := by
  have htraverses : Traverses (metricValue f)
      (fun ds => evalEach (metricInput f) (ds.map fun d => ⟨name, d⟩ :: outer)) := by
    refine ⟨rfl, fun d rest => ?_⟩
    rw [List.map_cons, evalEach, metricInput_eval]
  exact htraverses.eq_of (traverses_mapM (metricValue f)) ds

theorem isAggregate_metric {kind : AggregateKind} {e : Expr} (he : metricExpr? kind = some e) :
    e.isAggregate = true := by
  cases kind <;> cases he <;> rfl

/-- An expression for a number is the number over the documents of the rows. -/
theorem evalGroup_eq_metricOver {kind : AggregateKind} {e : Expr} (he : metricExpr? kind = some e)
    (name : String) (outer : Scope) (ds : List TableRow) :
    e.evalGroup (ds.map fun d => ⟨name, d⟩ :: outer) = metricOver kind ds := by
  cases kind with
  | terms t => cases he
  | dateHistogram h => cases he
  | avg f =>
    cases he
    rw [metricOver, ← evalEach_metricInput f name outer ds]
    rfl
  | max f =>
    cases he
    rw [metricOver, ← evalEach_metricInput f name outer ds]
    rfl

/-- A column for a number holds it. -/
theorem value_eq_metricOver {kind : AggregateKind} {e : Expr} (he : metricExpr? kind = some e)
    (column name : String) (outer : Scope) (ds : List TableRow) :
    Subselect.value [⟨e, column⟩] (ds.map fun d => ⟨name, d⟩ :: outer) = metricOver kind ds :=
  (if_pos (isAggregate_metric he)).trans (evalGroup_eq_metricOver he name outer ds)

/-- Over no documents there is no number. -/
theorem metricOver_nil (kind : AggregateKind) : metricOver kind [] = .ok .null := by
  cases kind <;> rfl

/-- There is a number over documents whose field has a value. -/
theorem metricOver_total (kind : AggregateKind) {ds : List TableRow}
    (hds : ∀ d ∈ ds, IsDocument d.content) (hf : FieldAccepted kind.field) :
    ∃ c, metricOver kind ds = .ok c := by
  have hvalues : ∀ f : FieldAgg, FieldAccepted f.field →
      ∃ cs, ds.mapM (metricValue f) = .ok cs := by
    intro f hf
    refine (traverses_mapM (metricValue f)).total fun d hd => ?_
    obtain ⟨c, hc⟩ := fieldCell_total (hds d hd) hf
    exact ⟨_, map_eq_ok.mpr ⟨c, hc, rfl⟩⟩
  cases kind with
  | terms t => exact ⟨.null, rfl⟩
  | dateHistogram h => exact ⟨.null, rfl⟩
  | avg f =>
    obtain ⟨cs, hcs⟩ := hvalues f hf
    exact ⟨mean cs, map_eq_ok.mpr ⟨cs, hcs, rfl⟩⟩
  | max f =>
    obtain ⟨cs, hcs⟩ := hvalues f hf
    exact ⟨greatest cs, map_eq_ok.mpr ⟨cs, hcs, rfl⟩⟩

/-! ## Statements for numbers -/

section

variable {index field : String} (hname : sameName index outerName = false) {first : TableRow}
  {k : Cell} (hk : fieldCell first.content field = .ok k)

include hname hk

/-- What ties a number to its bucket compares a document with the first one of the bucket. -/
theorem correlation_eval (d : TableRow) :
    (correlation field).eval [⟨index, d⟩, ⟨outerName, first⟩] =
      (fieldCell d.content field).map fun c => compareCells .eq c k := by
  have hfind : Scope.find? [⟨index, d⟩, ⟨outerName, first⟩] (some outerName) = some first := by
    have hself : sameName outerName outerName = true := beq_self_eq_true _
    simp only [Scope.find?, List.find?, hname, hself]
    rfl
  have houter : (Expr.field (some outerName) field).eval [⟨index, d⟩, ⟨outerName, first⟩] =
      .ok k := by
    rw [Expr.eval, hfind]
    exact hk
  rw [correlation, Expr.eval, houter]
  show (do let x ← fieldCell d.content field; _) = (fieldCell d.content field).map _
  cases fieldCell d.content field <;> rfl

/-- It counts as true on the documents of the bucket, unless their key is missing: nothing equals a
missing value, not even another one. -/
theorem correlation_holds (d : TableRow) :
    (∃ c, (correlation field).eval [⟨index, d⟩, ⟨outerName, first⟩] = .ok c ∧ isTrue c = true) ↔
      k ≠ .null ∧ HasKey field (sortKey k) d := by
  have hdefined := cellDefined_fieldCell hk
  rw [correlation_eval hname hk]
  constructor
  · rintro ⟨c, hc, htrue⟩
    obtain ⟨x, hx, rfl⟩ := map_eq_ok.mp hc
    obtain ⟨-, hknull, heq⟩ := isTrue_compareCells.mp htrue
    exact ⟨hknull, x, hx, compare_eq_eq.mp (beq_iff_eq.mp heq)⟩
  · rintro ⟨hknull, x, hx, hkey⟩
    -- A value with the key of one that is not missing is not missing either.
    have hxnull : x ≠ .null := by
      rintro rfl
      exact hknull ((sortKey_eq_null hdefined).mp hkey.symm)
    refine ⟨_, map_eq_ok.mpr ⟨x, hx, rfl⟩, isTrue_compareCells.mpr ⟨hxnull, hknull, ?_⟩⟩
    exact beq_iff_eq.mpr (compare_eq_eq.mpr hkey)

variable {query : Option Query} {ps : List Expr}
  (hps : List.Forall₂ (fun (a : Atom) e => a.expr = .ok e) (leaves query) ps)

include hps

open Classical in
/-- The rows found for a number are the documents of the bucket if their key is not missing, and
none otherwise. -/
theorem found_metricSubselect (rows : List TableRow) :
    found index [⟨outerName, first⟩] (ps ++ [correlation field]) rows =
      (if k = .null then [] else counted query field (sortKey k) rows).map
        fun d => [⟨index, d⟩, ⟨outerName, first⟩] := by
  have hpasses : ∀ d, passes (ps ++ [correlation field]) [⟨index, d⟩, ⟨outerName, first⟩] = true ↔
      Satisfies query d ∧ k ≠ .null ∧ HasKey field (sortKey k) d := by
    intro d
    rw [passes_iff, holdsAll_eq_true, List.forall_mem_append, List.forall_mem_singleton,
      holdsAll_eq_true_iff hps, correlation_holds hname hk]
  unfold found
  congr 1
  -- A missing key passes no row, any other one exactly those of the bucket.
  by_cases hnull : k = .null
  · rw [if_pos hnull, List.filter_eq_nil_iff]
    intro d _ hd
    exact ((hpasses d).mp hd).2.1 hnull
  · rw [if_neg hnull, counted]
    apply List.filter_congr
    intro d _
    rw [Bool.eq_iff_iff, hpasses d, decide_eq_true_eq]
    exact and_congr_right fun _ => and_iff_right hnull

variable {tables : Tables.Lookup} {rows : List TableRow} (hrows : tables index = some rows)
  {kind : AggregateKind} {e : Expr} (he : metricExpr? kind = some e)

include hrows he

/-- The statement for a number of a bucket computes it from the documents of the bucket if their key
is not missing, and from no documents otherwise. -/
theorem metricSubselect_eval {c : Cell}
    (h : Subselect.eval tables [⟨outerName, first⟩] (metricSubselect index ps field e) = .ok c) :
    metricOver kind (if k = .null then [] else counted query field (sortKey k) rows) = .ok c := by
  obtain ⟨⟨name, found⟩, hsource, h⟩ := bind_eq_ok.mp h
  rw [show sourceRows tables (metricSubselect index ps field e).source = .ok (index, rows) from
    sourceRows_eq_ok hrows] at hsource
  cases hsource
  obtain ⟨scopes, hscopes, h⟩ := bind_eq_ok.mp h
  obtain ⟨-, rfl⟩ := filterRows_eq_ok.mp hscopes
  rw [← value_eq_metricOver he (functionName 0) index [⟨outerName, first⟩],
    ← found_metricSubselect hname hk hps]
  exact h

end

/-! ## Statements that have values -/

section

variable {index field : String} {first : TableRow} {query : Option Query} {ps : List Expr}

/-- What ties a number to its bucket has a value, under whatever name the documents are known. -/
theorem correlation_total {d : TableRow} (hd : IsDocument d.content)
    (hfirst : IsDocument first.content) (hfield : FieldAccepted field) :
    ∃ c, (correlation field).eval [⟨index, d⟩, ⟨outerName, first⟩] = .ok c := by
  obtain ⟨x, hx⟩ := fieldCell_total hd hfield
  -- A table of the same name as the outer one hides it.
  have houter : ∃ y, (Expr.field (some outerName) field).eval
      [⟨index, d⟩, ⟨outerName, first⟩] = .ok y := by
    have hself : sameName outerName outerName = true := beq_self_eq_true _
    cases hname : sameName index outerName with
    | true =>
      have hfind : Scope.find? [⟨index, d⟩, ⟨outerName, first⟩] (some outerName) = some d := by
        simp only [Scope.find?, List.find?, hname, Option.map_some]
      rw [Expr.eval, hfind]
      exact ⟨x, hx⟩
    | false =>
      have hfind : Scope.find? [⟨index, d⟩, ⟨outerName, first⟩] (some outerName) = some first := by
        simp only [Scope.find?, List.find?, hname, hself, Option.map_some]
      rw [Expr.eval, hfind]
      exact fieldCell_total hfirst hfield
  obtain ⟨y, hy⟩ := houter
  exact ⟨compareCells .eq x y, bind_eq_ok.mpr ⟨x, hx, bind_eq_ok.mpr ⟨y, hy, rfl⟩⟩⟩

/-- The statement for a number of a bucket has a value. -/
theorem metricSubselect_total
    (hps : List.Forall₂ (fun (a : Atom) e => a.expr = .ok e) (leaves query) ps)
    {tables : Tables.Lookup} {rows : List TableRow} (hrows : tables index = some rows)
    {kind : AggregateKind} {e : Expr} (he : metricExpr? kind = some e)
    (hdocuments : ∀ d ∈ rows, IsDocument d.content) (hfirst : IsDocument first.content)
    (hquery : ∀ a ∈ leaves query, FieldAccepted a.field) (hfield : FieldAccepted field)
    (hkind : FieldAccepted kind.field) :
    ∃ c, Subselect.eval tables [⟨outerName, first⟩] (metricSubselect index ps field e) = .ok c := by
  have htested : ∀ d ∈ rows, ∃ b,
      holdsAll [⟨index, d⟩, ⟨outerName, first⟩] (ps ++ [correlation field]) = .ok b := by
    intro d hd
    apply holdsAll_total
    rw [List.forall_mem_append, List.forall_mem_singleton]
    exact ⟨predicates_total hps (hdocuments d hd) hquery index _,
      correlation_total (hdocuments d hd) hfirst hfield⟩
  have hcounted : ∀ d ∈ rows.filter fun d =>
      passes (ps ++ [correlation field]) [⟨index, d⟩, ⟨outerName, first⟩], IsDocument d.content :=
    fun d hd => hdocuments d (List.mem_of_mem_filter hd)
  obtain ⟨c, hc⟩ := metricOver_total kind hcounted hkind
  refine ⟨c, bind_eq_ok.mpr ⟨(index, rows), sourceRows_eq_ok hrows, bind_eq_ok.mpr ⟨_,
    filterRows_eq_ok.mpr ⟨htested, rfl⟩, ?_⟩⟩⟩
  show Subselect.value [⟨e, functionName 0⟩]
    (found index [⟨outerName, first⟩] (ps ++ [correlation field]) rows) = _
  rw [found, value_eq_metricOver he, hc]

end

end Quarry.Plan
