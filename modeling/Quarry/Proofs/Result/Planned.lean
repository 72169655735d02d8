/-
# Results of plans

What is made of the rows of the aggregations of a plan.

* `node_names` — the columns of a node are numbered in the order of the aggregations under it.
* `AssemblesBuckets`, `AssemblesNumber` — what a node makes of rows that have its columns, and of
  rows that lack one.
* `compile_assembles` — every aggregation of a plan does one of the two, by its kind.
-/
import Mathlib.Data.List.Nodup
import Quarry.Proofs.Plan.Nodes
import Quarry.Proofs.Result.Rows

namespace Quarry

open Quarry.Outcome Quarry.Plan Quarry.Request Quarry.Result Quarry.Sql Quarry.Text

/-! ## Names of columns -/

namespace Plan

/-- Different numbers have different texts. -/
theorem ofNat_injective {m n : Nat} (h : Digits.ofNat m = Digits.ofNat n) : m = n := by
  have hchars : Nat.toDigits 10 m = Nat.toDigits 10 n := String.ofList_injective h
  have hm : Nat.ofDigitChars 10 (Nat.toDigits 10 m) 0 = m := Nat.ofDigitChars_ten_toDigits
  have hn : Nat.ofDigitChars 10 (Nat.toDigits 10 n) 0 = n := Nat.ofDigitChars_ten_toDigits
  rw [← hm, hchars, hn]

/-- Computed columns of different numbers have different names. -/
theorem functionName_injective : Function.Injective functionName := by
  intro m n h
  have hlist := congrArg String.toList h
  simp only [functionName, String.toList_append] at hlist
  have htail := List.append_cancel_left hlist
  exact Nat.succ.inj (ofNat_injective (String.toList_injective htail))

/-- A grouping column never has the name of a computed one. -/
theorem groupName_ne_functionName (m n : Nat) : groupName m ≠ functionName n := by
  intro h
  have hlist := congrArg (fun s => s.toList.head?) h
  simp [groupName, functionName, String.toList_append] at hlist

/-- The names of the columns of a node for buckets: the key, the count, and the numbers. -/
def numberedNames (numbers : Nat) : List String :=
  groupName 0 :: (List.range (numbers + 1)).map functionName

/-- The names of columns are different. -/
theorem nodup_numberedNames (numbers : Nat) : (numberedNames numbers).Nodup := by
  refine List.nodup_cons.mpr ⟨?_, List.Nodup.map functionName_injective List.nodup_range⟩
  intro h
  obtain ⟨n, -, hn⟩ := List.mem_map.mp h
  exact groupName_ne_functionName 0 n hn.symm

/-- The columns for numbers are named by their places. -/
theorem map_mapIdx_functionName {α β : Type} (f : Nat → α → β) (name : β → String)
    (h : ∀ i a, name (f i a) = functionName (i + 1)) (l : List α) :
    (l.mapIdx f).map name = (List.range l.length).map fun i => functionName (i + 1) := by
  apply List.ext_getElem
  · simp
  · intro i hi hi'
    simp [h]

/-- The columns of a node for buckets are numbered in the order of the aggregations under it. -/
theorem bucketNode_names (index : String) (ps : List Expr) (label : String) (d : Definition)
    (order : List (OrderKey Expr SortDirection)) (limit : Option Nat)
    (subs : List (Definition × Subselect)) :
    Node.names (.aggregation (bucketNode index ps label d order limit subs)) =
      numberedNames subs.length := by
  have hsubs := map_mapIdx_functionName
    (fun i (x : Definition × Subselect) => (⟨.subselect x.2, functionName (i + 1)⟩ : Column Output))
    Column.name (fun _ _ => rfl) subs
  rw [numberedNames, List.range_succ_eq_map, List.map_cons, List.map_map]
  exact congrArg (fun names => groupName 0 :: functionName 0 :: names) hsubs

/-- So they have different names, and each value of a row is found under its own. -/
theorem nodup_columns_bucketNode (index : String) (ps : List Expr) (label : String) (d : Definition)
    (order : List (OrderKey Expr SortDirection)) (limit : Option Nat)
    (subs : List (Definition × Subselect)) :
    ((bucketNode index ps label d order limit subs).statement.columns.map Column.name).Nodup := by
  have hnames := nodup_numberedNames subs.length
  rw [← bucketNode_names index ps label d order limit subs] at hnames
  exact hnames

/-- The columns of a bucket are those of its statement. -/
theorem bucketNode_bucketNames (subs : List (Definition × Subselect)) (d : Definition) :
    bucketNames ⟨groupName 0, d⟩ ⟨functionName 0, d⟩
        (subs.mapIdx fun i (x, _) => (⟨functionName (i + 1), x⟩ : Alias)) =
      numberedNames subs.length := by
  have hsubs := map_mapIdx_functionName
    (fun i (x : Definition × Subselect) => (⟨functionName (i + 1), x.1⟩ : Alias))
    Alias.name (fun _ _ => rfl) subs
  rw [numberedNames, List.range_succ_eq_map, List.map_cons, List.map_map]
  exact congrArg (fun names => groupName 0 :: functionName 0 :: names) hsubs

/-! ## Aggregations on a field -/

/-- An aggregation is one of a field. -/
def OnField (field : String) (a : Aggregate) : Prop :=
  ∃ kind, a.kind = .ok kind ∧ kind.field = field

/-- The aggregation at a place is the last one of a field, in the order of labels. -/
def LastOnField (aggs : Named Aggregate) (field : String) (i : Nat) : Prop :=
  ∃ label a, aggs[i]? = some (label, a) ∧ OnField field a ∧
    ∀ e ∈ aggs, OnField field e.2 → e.1 ≤ label

/-- Where labels ascend, the last aggregation of a field is the one at the last place. -/
theorem lastOnField_iff {aggs : Named Aggregate} (h : aggs.Ascending) {field : String} {i : Nat} :
    LastOnField aggs field i ↔ ∃ e, LastAt aggs (fun e => OnField field e.2) i e := by
  have hlt : ∀ (j k : Nat) (d e : String × Aggregate), j < k → aggs[j]? = some d →
      aggs[k]? = some e → d.1 < e.1 := by
    intro j k d e hjk hd he
    obtain ⟨hj, rfl⟩ := List.getElem?_eq_some_iff.mp hd
    obtain ⟨hk, rfl⟩ := List.getElem?_eq_some_iff.mp he
    exact List.pairwise_iff_getElem.mp h j k hj hk hjk
  constructor
  · rintro ⟨label, a, hi, hon, hmax⟩
    refine ⟨(label, a), hi, hon, ?_⟩
    intro j e hij he hone
    exact absurd (hlt i j (label, a) e hij hi he) (not_lt.mpr (hmax e (List.mem_of_getElem? he) hone))
  · rintro ⟨⟨label, a⟩, hi, hon, hlast⟩
    refine ⟨label, a, hi, hon, ?_⟩
    intro e he hone
    obtain ⟨j, hj⟩ := List.mem_iff_getElem?.mp he
    rcases Nat.lt_trichotomy j i with hji | rfl | hij
    · exact le_of_lt (hlt j i e (label, a) hji hj hi)
    · rw [hi] at hj
      cases hj
      exact le_refl label
    · exact absurd hone (hlast j e hij hj)

/-- The columns for numbers have the fields of the aggregations at their places. -/
theorem lastAt_metrics {index bucketField : String} {ps : List Expr} {aggs : Named Aggregate}
    {subs : List (Definition × Subselect)}
    (h : List.Forall₂ (PlannedSub index ps bucketField) aggs subs) {field : String} {i : Nat}
    {m : Alias} :
    LastAt (subs.mapIdx fun i (x, _) => (⟨functionName (i + 1), x⟩ : Alias))
        (fun m => m.definition.field = field) i m ↔
      (∃ e, LastAt aggs (fun e => OnField field e.2) i e) ∧
        ∃ x, subs[i]? = some x ∧ m = ⟨functionName (i + 1), x.1⟩ := by
  have hfield : ∀ (e : String × Aggregate) (x : Definition × Subselect),
      PlannedSub index ps bucketField e x → (OnField field e.2 ↔ x.1.field = field) := by
    rintro e x ⟨hkind, -, -⟩
    constructor
    · rintro ⟨kind, hkind', rfl⟩
      rw [hkind] at hkind'
      cases hkind'
      rfl
    · intro hf
      exact ⟨_, hkind, hf⟩
  simp only [LastAt, List.getElem?_mapIdx, Option.map_eq_some_iff]
  constructor
  · rintro ⟨⟨x, hx, rfl⟩, hf, hlast⟩
    obtain ⟨e, he, hplanned⟩ := getElem?_of_forall₂ h.flip hx
    refine ⟨⟨e, he, (hfield e x hplanned).mpr hf, ?_⟩, x, hx, rfl⟩
    intro j d hij hd hon
    obtain ⟨y, hy, hplanned'⟩ := getElem?_of_forall₂ h hd
    exact hlast j _ hij ⟨y, hy, rfl⟩ ((hfield d y hplanned').mp hon)
  · rintro ⟨⟨e, he, hon, hlast⟩, x, hx, rfl⟩
    obtain ⟨y, hy, hplanned⟩ := getElem?_of_forall₂ h he
    rw [hx] at hy
    cases hy
    refine ⟨⟨x, hx, rfl⟩, (hfield e x hplanned).mp hon, ?_⟩
    rintro j _ hij ⟨y, hy, rfl⟩ hf
    obtain ⟨d, hd, hplanned'⟩ := getElem?_of_forall₂ h.flip hy
    exact hlast j d hij hd ((hfield d y hplanned').mpr hf)

/-! ## Results -/

/-- A bucket holds the columns of a row by their names: the key, the count, and under each field the
number of the last aggregation of that field; no other field has a number. -/
structure BucketOf (aggs : Named Aggregate) (row : Row) (b : Bucket) : Prop where
  key : ∃ c, row.get? (groupName 0) = some c ∧ b.key = c.key
  count : ∃ c, row.get? (functionName 0) = some c ∧ b.docCount = c.toInt?.getD 0
  ascending : b.metrics.Ascending
  metric : ∀ field v, b.metrics.get? field = some v ↔
    ∃ i c, LastOnField aggs field i ∧ row.get? (functionName (i + 1)) = some c ∧ v = c.toJson

/-- What a node for buckets makes of rows. -/
structure AssemblesBuckets (index : String) (ps : List Expr) (a : Aggregate) (kind : AggregateKind)
    (n : AggregationNode) : Prop where
  /-- The columns are the key, the count, and a number for each aggregation under the buckets. -/
  names : Node.names (.aggregation n) = numberedNames a.aggs.length
  distinct : (Node.names (.aggregation n)).Nodup
  /-- The number at a place is that of the aggregation at this place. -/
  number : ∀ i label sub, a.aggs[i]? = some (label, sub) → ∃ d s,
    PlannedSub index ps kind.field (label, sub) (d, s) ∧
      n.statement.columns[i + 2]? = some ⟨.subselect s, functionName (i + 1)⟩
  /-- Rows with these columns are buckets, one for each row and in their order. -/
  rows : ∀ rows : List Row, (∀ row ∈ rows, row.map Prod.fst = Node.names (.aggregation n)) →
    ∃ bs, assemble (.aggregation n) rows = .ok (n.label, .buckets bs) ∧
      List.Forall₂ (BucketOf a.aggs) rows bs
  /-- A row that lacks a column is an error. -/
  lacking : ∀ rows : List Row,
    (∃ row ∈ rows, ∃ name ∈ Node.names (.aggregation n), row.get? name = none) →
    ∃ name ∈ Node.names (.aggregation n),
      assemble (.aggregation n) rows = .error (.missingColumn name)

/-- What a node for one number makes of rows. -/
structure AssemblesNumber (n : AggregationNode) : Prop where
  names : Node.names (.aggregation n) = [functionName 0]
  /-- Exactly one row has a result, its only column. -/
  rows : ∀ rows : List Row, (∀ row ∈ rows, row.map Prod.fst = Node.names (.aggregation n)) →
    ∀ result, assemble (.aggregation n) rows = .ok result ↔
      ∃ row c, rows = [row] ∧ row.get? (functionName 0) = some c ∧
        result = (n.label, .metric c.toJson)
  /-- And exactly one row is needed for it. -/
  single : ∀ rows : List Row, (∀ row ∈ rows, row.map Prod.fst = Node.names (.aggregation n)) →
    ((∃ result, assemble (.aggregation n) rows = .ok result) ↔ rows.length = 1)
  /-- A row that lacks the column is an error. -/
  lacking : ∀ row : Row, row.get? (functionName 0) = none →
    assemble (.aggregation n) [row] = .error (.missingColumn (functionName 0))

/-- What the node of an aggregation makes of rows, by the kind of the aggregation. -/
def Assembles (index : String) (ps : List Expr) (e : String × Aggregate) (n : AggregationNode) :
    Prop :=
  n.label = e.1 ∧ ∃ kind, e.2.kind = .ok kind ∧
    if kind.type.isBucket then AssemblesBuckets index ps e.2 kind n else AssemblesNumber n

section

variable {index : String} {ps : List Expr}

/-- A row that has the columns of a node has a value under each of their names. -/
theorem exists_get?_of_names {row : Row} {names : List String} (h : row.map Prod.fst = names) :
    ∀ name ∈ names, ∃ c, row.get? name = some c := by
  intro name hname
  rw [← h] at hname
  exact exists_get?_of_mem hname

/-- A bucket of the columns for numbers is one of the aggregations at their places. -/
theorem bucketOf_of_isBucket {bucketField : String} {aggs : Named Aggregate}
    {subs : List (Definition × Subselect)} (hasc : aggs.Ascending)
    (h : List.Forall₂ (PlannedSub index ps bucketField) aggs subs) {d : Definition} {row : Row}
    {b : Bucket} (hb : IsBucket ⟨groupName 0, d⟩ ⟨functionName 0, d⟩
      (subs.mapIdx fun i (x, _) => ⟨functionName (i + 1), x⟩) row b) : BucketOf aggs row b where
  key := hb.key
  count := hb.count
  ascending := hb.ascending
  metric field v := by
    rw [hb.metric field v]
    constructor
    · rintro ⟨i, m, c, hlast, hc, rfl⟩
      obtain ⟨he, x, -, rfl⟩ := (lastAt_metrics h).mp hlast
      exact ⟨i, c, (lastOnField_iff hasc).mpr he, hc, rfl⟩
    · rintro ⟨i, c, hlast, hc, rfl⟩
      obtain ⟨e, he⟩ := (lastOnField_iff hasc).mp hlast
      obtain ⟨x, hx, -⟩ := getElem?_of_forall₂ h he.1
      exact ⟨i, _, c, (lastAt_metrics h).mpr ⟨⟨e, he⟩, x, hx, rfl⟩, hc, rfl⟩

/-- The node for buckets makes buckets of rows. -/
theorem assemblesBuckets {label : String} {a : Aggregate} {kind : AggregateKind}
    {subs : List (Definition × Subselect)} (hasc : Named.Ascending a.aggs)
    (hsubs : List.Forall₂ (PlannedSub index ps kind.field) a.aggs subs) :
    AssemblesBuckets index ps a kind
      (bucketNode index ps label (.ofKind kind) kind.bucketOrder kind.bucketLimit subs) := by
  have hnames : Node.names (.aggregation
      (bucketNode index ps label (.ofKind kind) kind.bucketOrder kind.bucketLimit subs)) =
        numberedNames a.aggs.length := by
    rw [bucketNode_names, hsubs.length_eq]
  -- The columns that are read are those that are selected.
  have hbucketNames := bucketNode_bucketNames subs (.ofKind kind)
  rw [← hsubs.length_eq, ← hnames] at hbucketNames
  refine ⟨hnames, hnames ▸ nodup_numberedNames _, ?_, ?_, ?_⟩
  · intro i label sub hi
    obtain ⟨⟨d, s⟩, hx, hplanned⟩ := getElem?_of_forall₂ hsubs hi
    refine ⟨d, s, hplanned, ?_⟩
    simp [bucketNode, hx]
  · intro rows hrows
    have hall : ∀ row ∈ rows, ∀ name ∈ bucketNames ⟨groupName 0, .ofKind kind⟩
        ⟨functionName 0, .ofKind kind⟩ (subs.mapIdx fun i (x, _) => ⟨functionName (i + 1), x⟩),
        ∃ c, row.get? name = some c := by
      intro row hrow
      exact exists_get?_of_names ((hrows row hrow).trans hbucketNames.symm)
    obtain ⟨bs, hbs, hbuckets⟩ := bucketsOfRows_total hall
    refine ⟨bs, ?_, hbuckets.imp fun row b hb => bucketOf_of_isBucket hasc hsubs hb⟩
    exact map_eq_ok.mpr ⟨_, map_eq_ok.mpr ⟨bs, hbs, rfl⟩, rfl⟩
  · intro rows hlack
    rw [← hbucketNames] at hlack ⊢
    obtain ⟨name, hname, herror⟩ := bucketsOfRows_lacking hlack
    refine ⟨name, hname, ?_⟩
    simp only [assemble, assembleAggregation, bucketNode, herror]
    rfl

/-- The node for one number makes a number of one row. -/
theorem assemblesNumber (label : String) (d : Definition) (e : Expr) :
    AssemblesNumber (metricNode index ps label d e) := by
  have hrows : ∀ (rows : List Row) (result : String × Aggregation),
      assemble (.aggregation (metricNode index ps label d e)) rows = .ok result ↔
        ∃ row c, rows = [row] ∧ row.get? (functionName 0) = some c ∧
          result = (label, .metric c.toJson) := by
    intro rows result
    simp only [assemble, assembleAggregation, metricNode, map_eq_ok]
    -- Only the case of exactly one row is no error.
    rcases rows with _ | ⟨row, _ | ⟨row', rest⟩⟩
    · simp
    · simp only [map_eq_ok, cell_eq_ok]
      constructor
      · rintro ⟨_, ⟨c, hc, rfl⟩, rfl⟩
        exact ⟨row, c, rfl, hc, rfl⟩
      · rintro ⟨row, c, hrow, hc, rfl⟩
        cases hrow
        exact ⟨_, ⟨c, hc, rfl⟩, rfl⟩
    · simp
  refine ⟨rfl, fun rows _ => hrows rows, ?_, ?_⟩
  · intro rows hnames
    constructor
    · rintro ⟨result, hresult⟩
      obtain ⟨row, c, rfl, -, -⟩ := (hrows rows result).mp hresult
      rfl
    · intro hlength
      obtain ⟨row, rfl⟩ := List.length_eq_one_iff.mp hlength
      obtain ⟨c, hc⟩ := exists_get?_of_names (hnames row List.mem_cons_self) (functionName 0)
        List.mem_cons_self
      exact ⟨_, (hrows [row] _).mpr ⟨row, c, rfl, hc, rfl⟩⟩
  · intro row hlack
    simp only [assemble, assembleAggregation, metricNode, cell_of_none hlack]
    rfl

/-- The node of an aggregation makes results of rows. -/
theorem Planned.assembles {e : String × Aggregate} {n : AggregationNode}
    (hasc : Named.Ascending e.2.aggs) (h : Planned index ps e n) : Assembles index ps e n := by
  cases h with
  | @buckets label a kind subs hkind hbucket hsubs =>
    refine ⟨rfl, kind, hkind, ?_⟩
    rw [if_pos hbucket]
    exact assemblesBuckets hasc hsubs
  | @metric label a kind x hkind hx haggs =>
    refine ⟨rfl, kind, hkind, ?_⟩
    have hnone : ¬ kind.type.isBucket = true := by
      rw [← metricExpr?_eq_none, hx]
      exact Option.some_ne_none x
    rw [if_neg hnone]
    exact assemblesNumber label (.ofKind kind) x

end

/-- Rows of the columns that a plan selects always have a result: buckets for the aggregations that
make some, and one number for the others. -/
theorem compile_assembles {index : String} {r : SearchRequest} {p : Plan} (hr : r.Ordered)
    (h : compile index r = .ok p) :
    ∃ ps, PlannedWith index r p ps ∧ List.Forall₂ (Assembles index ps) r.aggs p.aggregations := by
  obtain ⟨ps, hps⟩ := compile_eq_ok.mp h
  refine ⟨ps, hps, ?_⟩
  have hboth := (List.forall₂_and_left _ _).mpr ⟨hr.ascending_under, hps.aggregations⟩
  exact hboth.imp fun e n hn => hn.2.assembles hn.1

/-- The rows of the example have results. -/
theorem compile_assembles_example : exampleRequest.Ordered ∧
    ∃ p, compile "logs" exampleRequest = .ok p ∧ ∃ ps, PlannedWith "logs" exampleRequest p ps ∧
      List.Forall₂ (Assembles "logs" ps) exampleRequest.aggs p.aggregations :=
  ⟨exampleRequest_ordered, _, rfl, compile_assembles exampleRequest_ordered rfl⟩

end Plan

end Quarry
