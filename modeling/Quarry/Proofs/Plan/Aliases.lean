/-
# Names of columns

Which aggregation stands behind the name of a column.

* `valueTokens` — what computes the value of an aggregation, as it stands in a statement.
* `Records` — the names that are recorded for an aggregation are those of the columns that its
  statement selects, and each is recorded for the aggregation whose value it names.
* `compile_records` — so it is for every aggregation of a plan.
-/
import Quarry.Proofs.Plan.Tokens
import Quarry.Proofs.Result.Planned
import Quarry.Proofs.Sql.Columns

namespace Quarry.Plan

open Quarry.Outcome Quarry.Request Quarry.Result Quarry.Sql

/-! ## What stands in columns -/

/-- A field of a document. -/
def fieldTokens (field : String) : List Token :=
  [.word "JSON_EXTRACT", .sign "(", .word "content", .sign ",", .literal (fieldPath field),
    .sign ")"]

/-- A field of a document, with what stands in for it where it is missing. -/
def inputTokens (f : FieldAgg) : List Token :=
  match f.missing with
  | some missing =>
    [.word "COALESCE", .sign "("] ++ fieldTokens f.field ++
      [.sign ","] ++ (Literal.ofText missing).tokens ++ [.sign ")"]
  | none => fieldTokens f.field

/-- The value of a kind of aggregation: the number of documents of a bucket, or the mean or the
greatest of a field. -/
def valueTokens : AggregateKind → List Token
  | .terms _ => [.word "COUNT", .sign "(", .sign "*", .sign ")"]
  | .dateHistogram _ => [.word "COUNT", .sign "(", .sign "*", .sign ")"]
  | .avg f => [.word "AVG", .sign "("] ++ inputTokens f ++ [.sign ")"]
  | .max f => [.word "MAX", .sign "("] ++ inputTokens f ++ [.sign ")"]

theorem tokensOf_field (field : String) :
    tokensOf (Expr.field none field).pieces = fieldTokens field := rfl

/-- An expression for a number is made of the tokens of its kind. -/
theorem tokensOf_metric {kind : AggregateKind} {e : Expr} (h : metricExpr? kind = some e) :
    tokensOf e.pieces = valueTokens kind := by
  have hinput : ∀ f : FieldAgg, tokensOf (metricInput f).pieces = inputTokens f := by
    intro f
    unfold metricInput inputTokens
    cases f.missing with
    | none => rfl
    | some missing =>
      simp [Expr.pieces, Piece.word, Piece.sign, Piece.tokens, ← tokensOf_field]
  cases kind with
  | terms t => cases h
  | dateHistogram d => cases h
  | avg f =>
    cases h
    simp [Expr.pieces, Piece.word, Piece.sign, Piece.tokens, hinput, valueTokens]
  | max f =>
    cases h
    simp [Expr.pieces, Piece.word, Piece.sign, Piece.tokens, hinput, valueTokens]

/-- Neither is an expression for a number a column of that name. -/
theorem unnamed_of_metric {kind : AggregateKind} {e : Expr} (h : metricExpr? kind = some e) :
    e.Unnamed := by
  cases kind <;> cases h <;> trivial

/-! ## Records of names -/

/-- The names of columns and the aggregations for which they are recorded, given the columns that
are read in the statement: what is selected, and the name after it. -/
structure Records (a : Aggregate) (n : AggregationNode) (columns : List (List Token × String)) :
    Prop where
  names : columns.map Prod.snd = Node.names (.aggregation n)
  distinct : (Node.names (.aggregation n)).Nodup
  /-- Each column is recorded once, in its order, and nothing else is. -/
  recorded : (n.columns.groups ++ n.columns.functions).map Alias.name = columns.map Prod.snd
  /-- The computed columns are numbered, the aggregation itself first. -/
  functions : n.columns.functions.map Alias.name =
    (List.range (1 + a.aggs.length)).map functionName
  /-- The aggregation itself: its key if it makes buckets, and its own value. -/
  own : ∃ kind, a.kind = .ok kind ∧
    n.columns.groups = (if kind.type.isBucket then [⟨groupName 0, .ofKind kind⟩] else []) ∧
    (kind.type.isBucket = true → (fieldTokens kind.field, groupName 0) ∈ columns) ∧
    n.columns.functions[0]? = some ⟨functionName 0, .ofKind kind⟩ ∧
    (valueTokens kind, functionName 0) ∈ columns
  /-- The aggregations under it, in the order of labels: each in a statement in brackets that
  selects its value. -/
  under : ∀ i label sub, a.aggs[i]? = some (label, sub) → ∃ kind, sub.kind = .ok kind ∧
    n.columns.functions[i + 1]? = some ⟨functionName (i + 1), .ofKind kind⟩ ∧
    ∃ ts, columnsOf ts = some [(valueTokens kind, functionName 0)] ∧
      (.sign "(" :: ts ++ [.sign ")"], functionName (i + 1)) ∈ columns
  ascending : Named.Ascending a.aggs
  container : n.columns.category = .bucket ↔ n.columns.groups ≠ []

section

variable {index : String} {ps : List Expr}

/-- In the statement in brackets stands the value of the aggregation. -/
theorem PlannedSub.reads_value {field : String} {e : String × Aggregate}
    {x : Definition × Subselect} (h : PlannedSub index ps field e x) :
    ∃ kind, e.2.kind = .ok kind ∧ x.1 = .ofKind kind ∧
      columnsOf (tokensOf (Subselect.pieces x.2)) = some [(valueTokens kind, functionName 0)] := by
  obtain @⟨label, a, kind, y, hkind, hy, -⟩ := h
  refine ⟨kind, hkind, rfl, ?_⟩
  have hpasses : ∀ c ∈ (metricSubselect index ps field y).columns,
      Passes 0 (tokensOf c.expr.pieces) := by
    intro c hc
    rw [List.mem_singleton.mp hc]
    exact Expr.passes fun _ => unnamed_of_metric hy
  rw [Subselect.pieces, columnsOf_pieces (List.cons_ne_nil _ _) hpasses, metricSubselect,
    List.map_singleton, tokensOf_metric hy]

/-- In the statement of a node stand its columns with their names. -/
theorem Planned.reads_columns (hps : ∀ e ∈ ps, e.Plain) {e : String × Aggregate}
    {n : AggregationNode} (h : Planned index ps e n) :
    ∃ ts, lex (Node.sql (.aggregation n)) = some ts ∧ columnsOf ts =
      some (n.statement.columns.map fun c => (tokensOf c.expr.pieces, c.name)) := by
  have hplain := h.plain hps
  cases h with
  | buckets hkind hbucket hsubs =>
    refine Statement.reads_columns hplain (List.cons_ne_nil _ _) fun c hc x hx => ?_
    rcases mem_columns_bucketNode.mp hc with rfl | rfl | ⟨i, y, -, rfl⟩
    · cases hx
      trivial
    · cases hx
      trivial
    · cases hx
  | metric hkind hy haggs =>
    refine Statement.reads_columns hplain (List.cons_ne_nil _ _) fun c hc x hx => ?_
    rw [List.mem_singleton.mp hc] at hx
    cases hx
    exact unnamed_of_metric hy

/-- The names of a node for buckets are recorded. -/
theorem records_buckets {label : String} {a : Aggregate} {kind : AggregateKind}
    {subs : List (Definition × Subselect)} (hasc : Named.Ascending a.aggs)
    (hkind : a.kind = .ok kind) (hbucket : kind.type.isBucket = true)
    (hsubs : List.Forall₂ (PlannedSub index ps kind.field) a.aggs subs) :
    let n := bucketNode index ps label (.ofKind kind) kind.bucketOrder kind.bucketLimit subs
    Records a n (n.statement.columns.map fun c => (tokensOf c.expr.pieces, c.name)) := by
  intro n
  have hmem : ∀ c ∈ n.statement.columns, (tokensOf c.expr.pieces, c.name) ∈
      n.statement.columns.map fun c => (tokensOf c.expr.pieces, c.name) :=
    fun c hc => List.mem_map_of_mem hc
  have hnames : Node.names (.aggregation n) = numberedNames a.aggs.length := by
    rw [bucketNode_names, hsubs.length_eq]
  have hread : (n.statement.columns.map fun c => (tokensOf c.expr.pieces, c.name)).map Prod.snd =
      Node.names (.aggregation n) := List.map_map
  have hvalue : tokensOf Expr.count.pieces = valueTokens kind := by
    cases kind <;> first | rfl | cases hbucket
  have hrecorded := bucketNode_bucketNames subs (.ofKind kind)
  rw [← hsubs.length_eq] at hrecorded
  refine ⟨hread, hnames ▸ nodup_numberedNames _, ?_, ?_, ⟨kind, hkind, ?_, ?_, rfl, ?_⟩, ?_, hasc,
    iff_of_true rfl (List.cons_ne_nil _ _)⟩
  · rw [hread, hnames, ← hrecorded]
    rfl
  · rw [Nat.add_comm]
    exact (List.cons.inj hrecorded).2
  · rw [if_pos hbucket]
    rfl
  · intro _
    exact hmem ⟨.expr (.field none kind.field), groupName 0⟩ (mem_columns_bucketNode.mpr (.inl rfl))
  · rw [← hvalue]
    exact hmem ⟨.expr .count, functionName 0⟩ (mem_columns_bucketNode.mpr (.inr (.inl rfl)))
  · intro i label sub hi
    obtain ⟨x, hx, hplanned⟩ := getElem?_of_forall₂ hsubs hi
    obtain ⟨k, hk, hdef, hvalue⟩ := hplanned.reads_value
    refine ⟨k, hk, ?_, _, hvalue, ?_⟩
    · simp [n, bucketNode, Columns.functions, hx, hdef]
    · have hsub := hmem ⟨.subselect x.2, functionName (i + 1)⟩
        (mem_columns_bucketNode.mpr (.inr (.inr ⟨i, x, hx, rfl⟩)))
      simpa [Output.pieces, Piece.sign, Piece.tokens] using hsub

/-- The name of a node for one number is recorded. -/
theorem records_metric {label : String} {a : Aggregate} {kind : AggregateKind} {e : Expr}
    (hkind : a.kind = .ok kind) (he : metricExpr? kind = some e) (haggs : a.aggs = []) :
    let n := metricNode index ps label (.ofKind kind) e
    Records a n (n.statement.columns.map fun c => (tokensOf c.expr.pieces, c.name)) := by
  intro n
  have hnumber : ¬ kind.type.isBucket = true := by
    rw [← metricExpr?_eq_none, he]
    exact Option.some_ne_none e
  refine ⟨rfl, List.nodup_singleton _, rfl, ?_, ⟨kind, hkind, ?_, fun h => absurd h hnumber, rfl, ?_⟩,
    ?_, ?_, iff_of_false nofun fun h => h rfl⟩
  · rw [haggs]
    rfl
  · rw [if_neg hnumber]
    rfl
  · rw [← tokensOf_metric he]
    exact List.mem_singleton_self _
  · intro i label sub hi
    rw [haggs] at hi
    cases hi
  · rw [haggs]
    exact Named.ascending_nil

end

/-- The columns that are read in the statement of an aggregation have different names, and these
are the names that are recorded for the aggregation and for those under it: the key and the number
of documents of a bucket, then the values of the aggregations under it in the order of labels. -/
theorem compile_records {index : String} {r : SearchRequest} {p : Plan} (hr : r.Ordered)
    (h : compile index r = .ok p) :
    List.Forall₂ (fun (e : String × Aggregate) n =>
      ∃ ts columns, lex (Node.sql (.aggregation n)) = some ts ∧ columnsOf ts = some columns ∧
        Records e.2 n columns) r.aggs p.aggregations := by
  obtain ⟨ps, hps⟩ := compile_eq_ok.mp h
  have hplain : ∀ e ∈ ps, e.Plain := by
    intro e he
    obtain ⟨a, -, hae⟩ := exists_of_mem_right hps.predicates he
    exact plain_of_atom hae
  have hboth := (List.forall₂_and_left _ _).mpr ⟨hr.ascending_under, hps.aggregations⟩
  refine hboth.imp ?_
  rintro e n ⟨hasc, hplanned⟩
  obtain ⟨ts, hts, hread⟩ := hplanned.reads_columns hplain
  refine ⟨ts, _, hts, hread, ?_⟩
  cases hplanned with
  | buckets hkind hbucket hsubs => exact records_buckets hasc hkind hbucket hsubs
  | metric hkind he haggs => exact records_metric hkind he haggs

/-- The names of the example are recorded. -/
theorem compile_records_example : exampleRequest.Ordered ∧
    ∃ p, compile "logs" exampleRequest = .ok p ∧
      List.Forall₂ (fun (e : String × Aggregate) n =>
        ∃ ts columns, lex (Node.sql (.aggregation n)) = some ts ∧ columnsOf ts = some columns ∧
          Records e.2 n columns) exampleRequest.aggs p.aggregations :=
  ⟨exampleRequest_ordered, _, rfl, compile_records exampleRequest_ordered rfl⟩

end Quarry.Plan
