/-
# Scopes of numbers

Which rows the statements for numbers of buckets are about.

* `rowScope` — the rows in scope inside such a statement: its own, and the one of the bucket.
* `sameName_outerName_iff` — the names of indices that are the name of the rows of buckets.
* `compile_resolves` — references without a name are to the own row. Those with one are to the row of
  the bucket, except in an index whose name they are.
* `compile_captures` — in such an index every bucket has the same number.
-/
import Quarry.Engine.Basic
import Quarry.Proofs.Plan.Buckets
import Quarry.Proofs.Plan.Sources
import Quarry.Proofs.Sql.References
import Quarry.Proofs.Store.Tables

namespace Quarry.Plan

open Quarry.Date Quarry.Outcome Quarry.Request Quarry.Result Quarry.Sql

/-! ## References of plans -/

/-- A predicate of a query is about the row of its statement. -/
theorem references_atom {a : Atom} {e : Expr} (h : a.expr = .ok e) : ∀ q ∈ e.references, q = none := by
  cases a with
  | equal field value =>
    cases h
    exact fun q hq => List.mem_singleton.mp hq
  | bound field format op b =>
    obtain ⟨v, -, h⟩ := bind_eq_ok.mp h
    cases h
    exact fun q hq => List.mem_singleton.mp hq

/-- So is the expression for a number. -/
theorem references_metric {kind : AggregateKind} {e : Expr} (h : metricExpr? kind = some e) :
    ∀ q ∈ e.references, q = none := by
  have hinput : ∀ f : FieldAgg, (metricInput f).references = [none] := by
    intro f
    unfold metricInput
    cases f.missing <;> rfl
  have hsingle : e.references = [none] := by
    cases kind <;> cases h
    · exact hinput _
    · exact hinput _
  rw [hsingle]
  exact fun q hq => List.mem_singleton.mp hq

section

variable {index field : String} {ps : List Expr} {e : Expr}

theorem mem_references_metricSubselect {q : Option String} :
    q ∈ (metricSubselect index ps field e).references ↔
      q ∈ e.references ∨ (∃ p ∈ ps, q ∈ p.references) ∨ q = none ∨ q = some outerName := by
  simp [Subselect.references, metricSubselect, correlation, Expr.references]

end

/-! ## Rows in scope -/

/-- The rows in scope inside a statement that stands in another one. -/
def rowScope (inner outer : Source) (d o : TableRow) : Scope :=
  [⟨inner.knownAs, d⟩, ⟨outer.knownAs, o⟩]

/-- The names that differ from the name of the rows of buckets at most in case. -/
theorem sameName_outerName_iff {index : String} :
    sameName index outerName = true ↔ index = "t0" ∨ index = "T0" := by
  have hletter : ∀ c : Char, c.toLower = 't' → c = 't' ∨ c = 'T' := by
    intro c h
    rcases eq_or_capital_of_toLower h with heq | ⟨-, -, hval⟩
    · exact .inl heq
    · exact .inr (Char.toNat_inj.mp (Nat.add_right_cancel hval))
  have hdigit : ∀ c : Char, c.toLower = '0' → c = '0' := by
    intro c h
    rcases eq_or_capital_of_toLower h with heq | ⟨hcapital, -, hval⟩
    · exact heq
    · have hlow : 65 ≤ c.toNat := hcapital
      have hhigh : c.toNat + 32 = 48 := hval
      omega
  rw [sameName_iff]
  constructor
  · intro h
    have hlist : index.toList.map Char.toLower = ['t', '0'] := by
      have htoList := congrArg String.toList h
      rwa [asciiLower, String.toList_ofList] at htoList
    obtain ⟨c, cs, hchars, hc, hrest⟩ := List.map_eq_cons_iff.mp hlist
    obtain ⟨d, ds, rfl, hd, hnone⟩ := List.map_eq_cons_iff.mp hrest
    rw [List.map_eq_nil_iff.mp hnone, hdigit d hd] at hchars
    rcases hletter c hc with rfl | rfl
    · exact .inl (String.toList_inj.mp hchars)
    · exact .inr (String.toList_inj.mp hchars)
  · rintro (rfl | rfl) <;> decide

/-- The rows in scope inside a statement for a number of each bucket. -/
def bucketScope (index : String) (d o : TableRow) : Scope :=
  rowScope ⟨index, none⟩ ⟨index, some outerName⟩ d o

theorem find?_bucketScope (index : String) (d o : TableRow) :
    (bucketScope index d o).find? (some outerName) =
      some (if sameName index outerName then d else o) := by
  have hself : sameName outerName outerName = true := sameName_self outerName
  cases hname : sameName index outerName <;>
    simp [bucketScope, rowScope, Scope.find?, Source.knownAs, hname, hself]

/-- The name for rows of buckets is that of the own row in an index that is called by it. -/
theorem find?_captured {index : String} (h : index = "t0" ∨ index = "T0") (d o : TableRow) :
    (bucketScope index d o).find? (some outerName) = some d := by
  rw [find?_bucketScope, if_pos (sameName_outerName_iff.mpr h)]

/-- It is that of the row of the bucket in every other one. -/
theorem find?_outerName_iff {index : String} :
    (∀ d o, (bucketScope index d o).find? (some outerName) = some o) ↔
      ¬ (index = "t0" ∨ index = "T0") := by
  constructor
  · intro hall h
    -- Two different rows tell to which of them the reference is.
    cases (find?_captured h ⟨0, ""⟩ ⟨1, ""⟩).symm.trans (hall ⟨0, ""⟩ ⟨1, ""⟩)
  · intro h d o
    rw [find?_bucketScope, if_neg (sameName_outerName_iff.not.mpr h)]

/-! ## Plans -/

section

variable {index : String} {r : SearchRequest} {p : Plan} {ps : List Expr}

/-- A statement in the place of a value is a number for buckets, and the rows around it are known by
the name for rows of buckets. -/
theorem PlannedWith.subselect_sources (h : PlannedWith index r p ps) {n : AggregationNode}
    (hn : n ∈ p.aggregations) {s : Subselect}
    (hs : Output.subselect s ∈ n.statement.columns.map Column.expr) :
    n.statement.source = some ⟨index, some outerName⟩ ∧ ∃ field kind e,
      metricExpr? kind = some e ∧ s = metricSubselect index ps field e := by
  obtain ⟨a, -, hplanned⟩ := exists_of_mem_right h.aggregations hn
  obtain ⟨c, hc, hexpr⟩ := List.mem_map.mp hs
  cases hplanned with
  | @buckets label a kind subs hkind hbucket hsubs =>
    rcases mem_columns_bucketNode.mp hc with rfl | rfl | ⟨i, x, hx, rfl⟩
    · cases hexpr
    · cases hexpr
    · have hmem := List.mem_of_getElem? hx
      obtain ⟨entry, -, hsub⟩ := exists_of_mem_right hsubs hmem
      have hne : subs.isEmpty = false := by
        rw [List.isEmpty_eq_false_iff]
        exact List.ne_nil_of_mem hmem
      refine ⟨?_, ?_⟩
      · simp [bucketNode, hne]
      · cases hsub with
        | intro hkind' he haggs =>
          cases hexpr
          exact ⟨kind.field, _, _, he, rfl⟩
  | metric hkind he haggs =>
    rw [List.mem_singleton.mp hc] at hexpr
    cases hexpr

/-- The references of such a statement are those to its own row and one to the row of the bucket. -/
theorem PlannedWith.references_subselect (h : PlannedWith index r p ps) {kind : AggregateKind}
    {field : String} {e : Expr} (he : metricExpr? kind = some e) {q : Option String} :
    q ∈ (metricSubselect index ps field e).references ↔ q = none ∨ q = some outerName := by
  rw [mem_references_metricSubselect]
  constructor
  · rintro (hq | ⟨x, hx, hq⟩ | hq)
    · exact .inl (references_metric he q hq)
    · obtain ⟨a, -, hax⟩ := exists_of_mem_right h.predicates hx
      exact .inl (references_atom hax q hq)
    · exact hq
  · exact fun hq => .inr (.inr hq)

end

/-- What the references in a statement for a number are resolved to, in the scope of a row of its own
and the row of a bucket. -/
structure Resolves (index : String) (tables : Tables.Lookup) (inner outer : Source) (s : Subselect) :
    Prop where
  references : ∀ q, q ∈ s.references ↔ q = none ∨ q = some outerName
  own : ∀ d o, (rowScope inner outer d o).find? none = some d
  /-- References with a name are to the row of the bucket just if the index has another name. -/
  bucket : (∀ q, some q ∈ s.references → ∀ d o, (rowScope inner outer d o).find? (some q) = some o) ↔
    ¬ (index = "t0" ∨ index = "T0")
  /-- Otherwise they are to the own row, and the number does not depend on the bucket. -/
  captured : index = "t0" ∨ index = "T0" →
    (∀ q, some q ∈ s.references → ∀ d o, (rowScope inner outer d o).find? (some q) = some d) ∧
      ∀ o o', Subselect.eval tables [⟨outer.knownAs, o⟩] s =
        Subselect.eval tables [⟨outer.knownAs, o'⟩] s

/-- Inside the statement for a number of buckets a reference without the name of a table is to a row
of the statement itself. One with a name is to the row of the bucket in every index but those that
are called by that name. -/
theorem compile_resolves {index : String} {r : SearchRequest} {p : Plan}
    (h : compile index r = .ok p) (tables : Tables.Lookup) :
    ∀ n ∈ p.aggregations, ∀ s, Output.subselect s ∈ n.statement.columns.map Column.expr →
      ∃ inner outer, s.source = some inner ∧ n.statement.source = some outer ∧
        Resolves index tables inner outer s := by
  obtain ⟨ps, hps⟩ := compile_eq_ok.mp h
  intro n hn s hs
  obtain ⟨hsource, field, kind, e, he, rfl⟩ := hps.subselect_sources hn hs
  have hrefs : ∀ q, q ∈ (metricSubselect index ps field e).references ↔
      q = none ∨ q = some outerName := fun q => hps.references_subselect he
  have hqualified : ∀ q, some q ∈ (metricSubselect index ps field e).references ↔ q = outerName := by
    intro q
    rw [hrefs, Option.some.injEq]
    exact or_iff_right nofun
  refine ⟨⟨index, none⟩, ⟨index, some outerName⟩, rfl, hsource, hrefs, fun d o => rfl, ?_, ?_⟩
  · simp only [hqualified, forall_eq]
    exact find?_outerName_iff
  · intro hname
    constructor
    · simp only [hqualified, forall_eq]
      exact find?_captured hname
    · intro o o'
      refine Subselect.eval_congr fun q hq source hs d => ?_
      cases hs
      rcases (hrefs q).mp hq with rfl | rfl
      · rfl
      · exact (find?_captured hname d o).trans (find?_captured hname d o').symm

/-- The references of the example are resolved. -/
theorem compile_resolves_example : ∃ p, compile "logs" slowestRequest = .ok p ∧
    ∀ n ∈ p.aggregations, ∀ s, Output.subselect s ∈ n.statement.columns.map Column.expr →
      ∃ inner outer, s.source = some inner ∧ n.statement.source = some outer ∧
        Resolves "logs" slowestTables inner outer s :=
  ⟨_, rfl, compile_resolves (r := slowestRequest) rfl slowestTables⟩

/-! ## An index with the name of the rows of buckets -/

/-- A document each of two services. -/
def capturedRows : List TableRow :=
  [⟨1, "\x7b\"latency\":5,\"service\":\"a\"\x7d"⟩, ⟨2, "\x7b\"latency\":9,\"service\":\"b\"\x7d"⟩]

/-- In an index of that name, which is valid, the reference to the row of the bucket is to the own
row. So the bucket of the first service has the number of the other one. -/
theorem compile_captures : Engine.isIndexName "t0" = true ∧
    ∃ p n s inner outer, compile "t0" slowestRequest = .ok p ∧ p.aggregations = [n] ∧
      Output.subselect s ∈ n.statement.columns.map Column.expr ∧ s.source = some inner ∧
      n.statement.source = some outer ∧
      (∃ q, some q ∈ s.references ∧ ∃ d o, (rowScope inner outer d o).find? (some q) ≠ some o) ∧
      n.statement.run (fun name => if name = "t0" then some capturedRows else none) =
        .ok [[(groupName 0, .text "a"), (functionName 0, .int 1), (functionName 1, .int 9)],
          [(groupName 0, .text "b"), (functionName 0, .int 1), (functionName 1, .int 9)]] :=
  ⟨by decide, _, _, _, _, _, rfl, rfl, List.mem_cons_of_mem _ (List.mem_cons_of_mem _
      (List.mem_cons_self)), rfl, rfl,
    ⟨outerName, by decide, ⟨1, ""⟩, ⟨2, ""⟩, by decide⟩, by decide +kernel⟩

end Quarry.Plan
