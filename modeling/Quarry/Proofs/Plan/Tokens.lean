/-
# Tokens of plans

Texts from a request fill the open places of the statements of its plan, and nothing else.

* `whereTexts` — the texts of a query, in the order of its comparisons.
* `requestTexts` — the texts of each statement of a plan.
* `compile_fills` — every statement of a plan falls into the tokens of its skeleton, filled with
  these texts.
-/
import Quarry.Proofs.Plan.Nodes
import Quarry.Proofs.Sql.Skeleton

namespace Quarry

open Quarry.Date Quarry.Outcome Quarry.Request Quarry.Sql

/-! ## Texts of requests -/

/-- The texts of a comparison; a bound is converted first. -/
def Plan.Atom.texts : Plan.Atom → Except FormatError (List UserText)
  | .equal field value => .ok [.field field, .value value]
  | .bound field format _ b => do
    let v ← format.toCanonical b.toJson
    return [.field field, .bound (Plan.boundText v)]

/-- The texts of a kind of aggregation. -/
def Request.AggregateKind.texts : AggregateKind → List UserText
  | .terms t => [.field t.field]
  | .dateHistogram d => [.field d.field]
  | .avg f => .field f.field :: f.missing.toList.map .value
  | .max f => .field f.field :: f.missing.toList.map .value

/-- The texts of an aggregation without those under it. -/
def Request.Aggregate.texts (a : Aggregate) : List UserText := a.kinds.flatMap AggregateKind.texts

namespace Plan

/-- The texts of a query, in the order of its comparisons. -/
def whereTexts (query : Option Query) : Except FormatError (List UserText) :=
  ((leaves query).mapM Atom.texts).map List.flatten

/-- The texts of the statement for an aggregation: its own, those of the number for each bucket,
and those of the query. -/
def aggregationTexts (index : String) (ws : List UserText) (a : Aggregate) : List UserText :=
  a.texts ++
    (a.aggs.flatMap fun e => e.2.texts ++ .index index :: ws ++ (a.texts ++ a.texts)) ++
    .index index :: ws

/-- The texts of each statement of a plan, given those of the query. -/
def requestTexts (index : String) (ws : List UserText) (r : SearchRequest) :
    List (List UserText) :=
  (r.aggs.map fun e => aggregationTexts index ws e.2) ++
    [.index index :: ws ++ r.sort.map fun e => .field e.field]

/-! ## Names without marks -/

theorem isWord_groupName (n : Nat) : isWord (groupName n) = true :=
  isWord_append_ofNat (by decide) n.succ

theorem isWord_functionName (n : Nat) : isWord (functionName n) = true :=
  isWord_append_ofNat (by decide) n.succ

/-- Predicates of comparisons need no names without marks. -/
theorem plain_of_atom {a : Atom} {e : Expr} (h : a.expr = .ok e) : e.Plain := by
  cases a with
  | equal field value =>
    cases h
    exact ⟨trivial, trivial⟩
  | bound field format op b =>
    obtain ⟨v, -, h⟩ := bind_eq_ok.mp h
    cases h
    exact ⟨trivial, trivial⟩

/-- Numbers need no names without marks. -/
theorem plain_of_metric {kind : AggregateKind} {e : Expr} (h : metricExpr? kind = some e) :
    e.Plain := by
  have hinput : ∀ f : FieldAgg, (metricInput f).Plain := by
    intro f
    unfold metricInput
    cases f.missing with
    | none => trivial
    | some missing => exact ⟨trivial, trivial⟩
  cases kind with
  | terms t => cases h
  | dateHistogram d => cases h
  | avg f =>
    cases h
    exact hinput f
  | max f =>
    cases h
    exact hinput f

section

variable {index : String} {ps : List Expr}

/-- The number for each bucket needs only words without marks. -/
theorem PlannedSub.plain (hps : ∀ e ∈ ps, e.Plain) {field : String} {a : String × Aggregate}
    {sub : Definition × Subselect} (h : PlannedSub index ps field a sub) :
    Subselect.Plain sub.2 := by
  obtain ⟨hkind, he, haggs⟩ := h
  refine ⟨?_, ?_, ?_, ?_, ?_⟩
  · intro c hc
    obtain rfl := List.mem_singleton.mp hc
    exact ⟨plain_of_metric he, isWord_functionName 0⟩
  · rintro t ht name hname
    cases ht
    cases hname
  · intro e he
    rcases List.mem_append.mp he with he | he
    · exact hps e he
    · obtain rfl := List.mem_singleton.mp he
      exact ⟨trivial, show isWord outerName = true by decide⟩
  · intro e he
    cases he
  · intro k hk
    cases hk

/-- The node of an aggregation needs only words without marks. -/
theorem Planned.plain (hps : ∀ e ∈ ps, e.Plain) {a : String × Aggregate} {node : AggregationNode}
    (h : Planned index ps a node) : Statement.Plain node.statement := by
  cases h with
  | @buckets label a kind subs hkind hbucket hsubs =>
    refine ⟨?_, ?_, hps, ?_, ?_⟩
    · intro c hc
      rcases mem_columns_bucketNode.mp hc with rfl | rfl | ⟨i, x, hx, rfl⟩
      · exact ⟨trivial, isWord_groupName 0⟩
      · exact ⟨trivial, isWord_functionName 0⟩
      · obtain ⟨entry, -, hsub⟩ := exists_of_mem_right hsubs (List.mem_of_getElem? hx)
        exact ⟨hsub.plain hps, isWord_functionName (i + 1)⟩
    · rintro t ht name hname
      cases ht
      have htag : isWord outerName = true := by decide
      have hopt : name ∈ (if subs.isEmpty then none else some outerName) := hname
      split_ifs at hopt
      · cases hopt
      · cases hopt
        exact htag
    · intro e he
      obtain rfl := List.mem_singleton.mp he
      exact isWord_groupName 0
    · intro k hk
      rcases expr_of_mem_bucketOrder hk with hkey | hkey <;> rw [hkey]
      · exact isWord_functionName 0
      · exact isWord_groupName 0
  | metric hkind he haggs =>
    refine ⟨?_, ?_, hps, ?_, ?_⟩
    · intro c hc
      obtain rfl := List.mem_singleton.mp hc
      exact ⟨plain_of_metric he, isWord_functionName 0⟩
    · rintro t ht name hname
      cases ht
      cases hname
    · intro e he
      cases he
    · intro k hk
      cases hk

/-- The statement for the hits needs only words without marks. -/
theorem plain_hitsStatement (hps : ∀ e ∈ ps, e.Plain) (r : SearchRequest) :
    Statement.Plain (hitsStatement index ps r) := by
  refine ⟨?_, ?_, hps, ?_, ?_⟩
  · intro c hc
    simp only [hitsStatement, List.mem_cons, List.not_mem_nil, or_false] at hc
    rcases hc with rfl | rfl
    · exact ⟨trivial, by decide⟩
    · exact ⟨trivial, by decide⟩
  · rintro t ht name hname
    cases ht
    cases hname
  · intro e he
    cases he
  · intro k hk
    obtain ⟨e, -, rfl⟩ := List.mem_map.mp hk
    trivial

end

/-! ## Pieces from outside -/

/-- The pieces that texts become. -/
def piecesOf (us : List UserText) : List Piece := us.map UserText.piece

@[simp] theorem piecesOf_append (us vs : List UserText) :
    piecesOf (us ++ vs) = piecesOf us ++ piecesOf vs := List.map_append

@[simp] theorem piecesOf_cons (u : UserText) (us : List UserText) :
    piecesOf (u :: us) = u.piece :: piecesOf us := rfl

@[simp] theorem piecesOf_nil : piecesOf [] = [] := rfl

/-- The pieces of the predicates of some comparisons are their texts. -/
theorem texts_of_predicates {atoms : List Atom} {ps : List Expr}
    (h : List.Forall₂ (fun (a : Atom) e => a.expr = .ok e) atoms ps) :
    ∃ us, (atoms.mapM Atom.texts).map List.flatten = .ok us ∧
      ps.flatMap (fun e => openPieces e.pieces) = piecesOf us := by
  induction h with
  | nil => exact ⟨[], rfl, rfl⟩
  | @cons a e atoms ps hae _ ih =>
    obtain ⟨us, hus, hpieces⟩ := ih
    obtain ⟨rest, hrest, rfl⟩ := map_eq_ok.mp hus
    -- Both conversions of a bound are the same one.
    have hfirst : ∃ ws, a.texts = .ok ws ∧ openPieces e.pieces = piecesOf ws := by
      cases a with
      | equal field value =>
        cases hae
        exact ⟨_, rfl, rfl⟩
      | bound field format op b =>
        obtain ⟨v, hv, he⟩ := bind_eq_ok.mp hae
        cases he
        exact ⟨_, bind_eq_ok.mpr ⟨v, hv, rfl⟩, rfl⟩
    obtain ⟨ws, hws, hopen⟩ := hfirst
    refine ⟨ws ++ rest.flatten, ?_, ?_⟩
    · rw [List.mapM_cons, hws]
      have hcons : (do
          let us ← atoms.mapM Atom.texts
          return ws :: us) = (.ok (ws :: rest) : Except FormatError _) :=
        bind_eq_ok.mpr ⟨rest, hrest, rfl⟩
      exact map_eq_ok.mpr ⟨ws :: rest, hcons, List.flatten_cons⟩
    · rw [List.flatMap_cons, hopen, hpieces, piecesOf_append]

/-- The texts of an aggregation of one kind are those of the kind. -/
theorem texts_of_kind {a : Aggregate} {kind : AggregateKind} (h : a.kind = .ok kind) :
    a.texts = kind.texts := by
  have hkinds : a.kinds = [kind] := by
    unfold Aggregate.kind at h
    split at h
    · cases h
    · rename_i k hk
      cases h
      exact hk
    · cases h
  rw [Aggregate.texts, hkinds, List.flatMap_singleton]

/-- The pieces of a number are the texts of its kind. -/
theorem openPieces_metric {kind : AggregateKind} {e : Expr} (h : metricExpr? kind = some e) :
    openPieces e.pieces = piecesOf kind.texts := by
  have hinput : ∀ f : FieldAgg, openPieces (metricInput f).pieces =
      piecesOf (.field f.field :: f.missing.toList.map .value) := by
    intro f
    unfold metricInput
    cases f.missing <;> rfl
  cases kind with
  | terms t => cases h
  | dateHistogram d => cases h
  | avg f =>
    cases h
    simpa [Expr.pieces, AggregateKind.texts] using hinput f
  | max f =>
    cases h
    simpa [Expr.pieces, AggregateKind.texts] using hinput f

/-- A kind that makes buckets has the field of the buckets as its text. -/
theorem texts_of_bucket {kind : AggregateKind} (h : kind.type.isBucket = true) :
    kind.texts = [.field kind.field] := by
  cases kind with
  | terms t => rfl
  | dateHistogram d => rfl
  | avg f => cases h
  | max f => cases h

/-- Lists made from numbered members, whatever the numbers. -/
theorem flatMap_mapIdx {α β γ : Type} {f : Nat → α → β} {g : β → List γ} {k : α → List γ}
    (h : ∀ i a, g (f i a) = k a) (l : List α) : (l.mapIdx f).flatMap g = l.flatMap k := by
  induction l generalizing f with
  | nil => rfl
  | cons a rest ih =>
    rw [List.mapIdx_cons, List.flatMap_cons, List.flatMap_cons, h,
      ih fun i b => h (i + 1) b]

section

variable {index : String} {ps : List Expr} {ws : List UserText}

/-- The pieces of the number for each bucket. -/
theorem PlannedSub.openPieces_eq (hps : (ps.flatMap fun e => openPieces e.pieces) = piecesOf ws)
    {field : String} {a : String × Aggregate} {sub : Definition × Subselect}
    (h : PlannedSub index ps field a sub) :
    openPieces (Output.subselect sub.2).pieces =
      piecesOf (a.2.texts ++ .index index :: ws ++ [.field field, .field field]) := by
  obtain ⟨hkind, he, haggs⟩ := h
  simp [Output.pieces, Subselect.pieces, Select.openPieces_pieces, metricSubselect,
    openPieces_metric he, texts_of_kind hkind, hps, correlation, Expr.pieces, fieldPieces,
    UserText.piece]

/-- The pieces of the columns for the numbers of each bucket. -/
theorem openPieces_subColumns (hps : (ps.flatMap fun e => openPieces e.pieces) = piecesOf ws)
    {field : String} {aggs : Named Aggregate} {subs : List (Definition × Subselect)}
    (h : List.Forall₂ (PlannedSub index ps field) aggs subs) :
    (subs.mapIdx fun i (_, s) => (⟨.subselect s, functionName (i + 1)⟩ : Column Output)).flatMap
        (fun c => openPieces c.expr.pieces) =
      aggs.flatMap fun e =>
        piecesOf (e.2.texts ++ .index index :: ws ++ [.field field, .field field]) := by
  have hnumbers := flatMap_mapIdx
    (f := fun i (x : Definition × Subselect) =>
      (⟨.subselect x.2, functionName (i + 1)⟩ : Column Output))
    (g := fun c => openPieces c.expr.pieces) (fun _ _ => rfl) subs
  exact hnumbers.trans (flatMap_eq_of_forall₂ h fun _ _ hsub => hsub.openPieces_eq hps)

/-- The pieces of the node of an aggregation. -/
theorem Planned.openPieces_eq (hps : (ps.flatMap fun e => openPieces e.pieces) = piecesOf ws)
    {a : String × Aggregate} {node : AggregationNode} (h : Planned index ps a node) :
    openPieces (Statement.pieces node.statement) = piecesOf (aggregationTexts index ws a.2) := by
  cases h with
  | @buckets label a kind subs hkind hbucket hsubs =>
    have htexts : a.texts = [.field kind.field] := by
      rw [texts_of_kind hkind, texts_of_bucket hbucket]
    have horder : kind.bucketOrder.flatMap (fun k => openPieces k.expr.pieces) = [] := by
      cases kind <;> rfl
    have hsubtexts : (a.aggs.flatMap fun e => piecesOf
          (e.2.texts ++ .index index :: ws ++ [.field kind.field, .field kind.field])) =
        piecesOf (a.aggs.flatMap fun e =>
          e.2.texts ++ .index index :: ws ++ (a.texts ++ a.texts)) := by
      rw [htexts, piecesOf, List.map_flatMap]
      rfl
    -- What ties a number to its bucket names the grouping field once inside and once outside.
    have hcolumns := (openPieces_subColumns hps hsubs).trans hsubtexts
    have hsource : (bucketNode index ps label (.ofKind kind) kind.bucketOrder kind.bucketLimit
        subs).statement.source.toList.map (fun t => Piece.index t.table) = [.index index] := rfl
    rw [Statement.pieces, Select.openPieces_pieces, hsource]
    simp only [bucketNode, List.flatMap_cons, hcolumns, hps, horder, aggregationTexts, htexts]
    simp [Output.pieces, Expr.pieces, fieldPieces, UserText.piece, Definition.ofKind]
  | metric hkind he haggs =>
    simp [Statement.pieces, Select.openPieces_pieces, metricNode, Output.pieces,
      openPieces_metric he, aggregationTexts, texts_of_kind hkind, haggs, hps, UserText.piece]

/-- The pieces of the statement for the hits. -/
theorem openPieces_hitsStatement
    (hps : (ps.flatMap fun e => openPieces e.pieces) = piecesOf ws) (r : SearchRequest) :
    openPieces (Statement.pieces (hitsStatement index ps r)) =
      piecesOf (.index index :: ws ++ r.sort.map fun e => .field e.field) := by
  have horder : (r.sort.map fun e => (⟨.field none e.field, e.direction⟩ :
        OrderKey Expr SortDirection)).flatMap (fun k => openPieces k.expr.pieces) =
      piecesOf (r.sort.map fun e => .field e.field) := by
    induction r.sort with
    | nil => rfl
    | cons e rest ih =>
      rw [List.map_cons, List.flatMap_cons, ih]
      rfl
  rw [Statement.pieces, Select.openPieces_pieces]
  simp only [hitsStatement, hps, horder]
  simp [Output.pieces, Expr.pieces, UserText.piece]

end

/-! ## Tokens -/

/-- A statement falls into the tokens of its skeleton, filled with some texts. The skeleton is that
of the statement without any text from outside, and no token ends the statement. -/
def FilledWith (us : List UserText) (n : Node) : Prop :=
  ∃ ts, lex n.sql = some ts ∧ Fills (Statement.erased n.statement).skeleton us ts ∧
    Token.sign ";" ∉ ts

/-- A statement whose names without marks are words is filled with the texts of its pieces. -/
theorem filledWith_of_pieces {n : Node} {us : List UserText} (hn : Statement.Plain n.statement)
    (hus : openPieces (Statement.pieces n.statement) = piecesOf us) : FilledWith us n := by
  have hfills := fills_pieces hus.symm
  refine ⟨_, (Statement.reads hn).lex, ?_, hfills.semicolon (Statement.semicolon n.statement)⟩
  rw [Statement.skeleton_erased]
  exact hfills

/-- Every statement of a plan falls into fixed tokens, which depend on no text of the request, and
into one token for each text of the request that has its place there: the name of the index, the
paths of fields, values and bounds. -/
theorem compile_fills {index : String} {r : SearchRequest} {p : Plan}
    (h : compile index r = .ok p) :
    ∃ ws, whereTexts r.query = .ok ws ∧
      List.Forall₂ FilledWith (requestTexts index ws r) p.nodes := by
  obtain ⟨ps, hps, haggs, hhits⟩ := compile_eq_ok.mp h
  obtain ⟨ws, hws, hopen⟩ := texts_of_predicates hps
  have hplain : ∀ e ∈ ps, e.Plain := by
    intro e he
    obtain ⟨a, -, hae⟩ := exists_of_mem_right hps he
    exact plain_of_atom hae
  refine ⟨ws, hws, ?_⟩
  refine List.rel_append ?_ ?_
  · rw [List.forall₂_map_left_iff, List.forall₂_map_right_iff]
    exact haggs.imp fun a node hnode =>
      filledWith_of_pieces (hnode.plain hplain) (hnode.openPieces_eq hopen)
  · refine .cons (filledWith_of_pieces ?_ ?_) .nil
    · rw [Node.statement, hhits]
      exact plain_hitsStatement hplain r
    · rw [Node.statement, hhits]
      exact openPieces_hitsStatement hopen r

/-- The statements of the example are filled with its texts, also in an index with a mark in its
name. -/
theorem compile_fills_example : ∃ p, compile "lo\"gs" exampleRequest = .ok p ∧
    ∃ ws, whereTexts exampleRequest.query = .ok ws ∧
      List.Forall₂ FilledWith (requestTexts "lo\"gs" ws exampleRequest) p.nodes :=
  ⟨_, rfl, compile_fills rfl⟩

end Plan

end Quarry
