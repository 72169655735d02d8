/-
# Buckets as they are returned

Which members the object of a bucket has, and what they hold.

* `subFields` — the fields of the aggregations under the buckets.
* `Shows` — the members are the key, the count, and one for each of these fields.
* `compile_shows` — so it is for every aggregation of a plan that makes buckets.
* `clashingRequest` — aggregations under buckets whose fields are not apart, and what is left.
-/
import Mathlib.Data.List.Dedup
import Quarry.Proofs.Result.Planned

namespace Quarry.Plan

open Quarry.Request Quarry.Result

/-! ## Fields under buckets -/

/-- The field of an aggregation, if it has a kind. -/
def fieldOf? (a : Aggregate) : Option String := a.kind.toOption.map AggregateKind.field

/-- The fields of aggregations, one for each and in their order. -/
def subFields (aggs : Named Aggregate) : List String := aggs.filterMap fun e => fieldOf? e.2

theorem onField_iff {field : String} {a : Aggregate} :
    OnField field a ↔ fieldOf? a = some field := by
  unfold OnField fieldOf?
  cases a.kind <;> simp [Except.toOption]

theorem mem_subFields {aggs : Named Aggregate} {field : String} :
    field ∈ subFields aggs ↔ ∃ e ∈ aggs, OnField field e.2 := by
  simp only [subFields, List.mem_filterMap, onField_iff]

/-- Among things of which one has a property there is a last one. -/
theorem exists_lastAt {α : Type} {l : List α} {P : α → Prop} (h : ∃ a ∈ l, P a) :
    ∃ i a, LastAt l P i a := by
  induction l with
  | nil =>
    obtain ⟨a, ha, -⟩ := h
    cases ha
  | cons first rest ih =>
    by_cases hrest : ∃ a ∈ rest, P a
    · obtain ⟨i, a, ha⟩ := ih hrest
      exact ⟨i + 1, a, lastAt_cons.mpr (.inl ⟨i, rfl, ha⟩)⟩
    · have hnone : ∀ a ∈ rest, ¬ P a := fun a ha hP => hrest ⟨a, ha, hP⟩
      obtain ⟨a, ha, hP⟩ := h
      rcases List.mem_cons.mp ha with rfl | ha
      · exact ⟨0, a, lastAt_cons.mpr (.inr ⟨rfl, rfl, hP, hnone⟩)⟩
      · exact absurd hP (hnone a ha)

/-- A field has a last aggregation when there is one of it. -/
theorem mem_subFields_iff_last {aggs : Named Aggregate} (h : aggs.Ascending) {field : String} :
    field ∈ subFields aggs ↔ ∃ i, LastOnField aggs field i := by
  rw [mem_subFields]
  constructor
  · intro hmem
    obtain ⟨i, e, he⟩ := exists_lastAt hmem
    exact ⟨i, (lastOnField_iff h).mpr ⟨e, he⟩⟩
  · rintro ⟨i, label, a, hi, hon, -⟩
    exact ⟨(label, a), List.mem_of_getElem? hi, hon⟩

/-- Where the fields are different, an aggregation is the last one of its own field. -/
theorem lastOnField_of_nodup {aggs : Named Aggregate} (h : aggs.Ascending)
    (hnodup : (subFields aggs).Nodup) {i : Nat} {e : String × Aggregate} (hi : aggs[i]? = some e)
    {field : String} (hon : OnField field e.2) : LastOnField aggs field i := by
  obtain ⟨label, a⟩ := e
  have hapart : aggs.Pairwise fun (d e : String × Aggregate) =>
      ∀ field, OnField field d.2 → ¬ OnField field e.2 := by
    refine (List.pairwise_filterMap.mp hnodup).imp ?_
    intro d e hde field hd he
    exact hde field (onField_iff.mp hd) field (onField_iff.mp he) rfl
  refine (lastOnField_iff h).mpr ⟨(label, a), hi, hon, ?_⟩
  intro j d hij hd
  obtain ⟨hi', hia⟩ := List.getElem?_eq_some_iff.mp hi
  obtain ⟨hj', rfl⟩ := List.getElem?_eq_some_iff.mp hd
  have hne := List.pairwise_iff_getElem.mp hapart i j hi' hj' hij field
  rw [hia] at hne
  exact hne hon

/-! ## Members of buckets -/

/-- The members of a bucket show the columns of a row. -/
structure Shows (aggs : Named Aggregate) (row : Row) (members : List (String × Json)) : Prop where
  key : ∃ c, row.get? (groupName 0) = some c ∧ members[0]? = some ("key", .string c.key)
  count : ∃ c, row.get? (functionName 0) = some c ∧
    members[1]? = some ("doc_count", .ofInt (c.toInt?.getD 0))
  /-- Behind the key and the count there is one member for each field. -/
  fields : ((members.drop 2).map Prod.fst).Perm (subFields aggs).dedup
  /-- It holds the number of the last aggregation on this field. -/
  number : ∀ field v, (field, v) ∈ members.drop 2 ↔
    ∃ i c, LastOnField aggs field i ∧ row.get? (functionName (i + 1)) = some c ∧
      v = metricJson c.toJson
  /-- Where the fields are different, each aggregation has a member with its own number. -/
  own : (subFields aggs).Nodup → ∀ i e field, aggs[i]? = some e → OnField field e.2 →
    ∃ c, row.get? (functionName (i + 1)) = some c ∧
      (field, metricJson c.toJson) ∈ members.drop 2
  /-- No two members have the same name, unless a field has that of the key or the count. -/
  distinct : "key" ∉ subFields aggs → "doc_count" ∉ subFields aggs →
    (members.map Prod.fst).Nodup

section

variable {aggs : Named Aggregate} {row : Row} {b : Bucket}

/-- Every number of a bucket is a member of its object, and there are no others. -/
theorem mem_mapValues_metricJson (hb : BucketOf aggs row b) (field : String) (v : Json) :
    (field, v) ∈ b.metrics.mapValues metricJson ↔
      ∃ i c, LastOnField aggs field i ∧ row.get? (functionName (i + 1)) = some c ∧
        v = metricJson c.toJson := by
  have hmem : (field, v) ∈ b.metrics.mapValues metricJson ↔
      ∃ u, b.metrics.get? field = some u ∧ v = metricJson u := by
    simp only [Named.mapValues, List.mem_map, Prod.mk.injEq]
    constructor
    · rintro ⟨⟨_, u⟩, hu, rfl, rfl⟩
      exact ⟨u, Named.get?_of_mem hb.ascending hu, rfl⟩
    · rintro ⟨u, hu, rfl⟩
      exact ⟨(field, u), Named.mem_of_get? hu, rfl, rfl⟩
  rw [hmem]
  constructor
  · rintro ⟨u, hu, rfl⟩
    obtain ⟨i, c, hlast, hc, rfl⟩ := (hb.metric field u).mp hu
    exact ⟨i, c, hlast, hc, rfl⟩
  · rintro ⟨i, c, hlast, hc, rfl⟩
    exact ⟨c.toJson, (hb.metric field _).mpr ⟨i, c, hlast, hc, rfl⟩, rfl⟩

/-- In a row with the columns of a bucket, there is one for the number at each place. -/
theorem exists_get?_number (hrow : row.map Prod.fst = numberedNames aggs.length) {i : Nat}
    (hi : i < aggs.length) : ∃ c, row.get? (functionName (i + 1)) = some c := by
  refine exists_get?_of_names hrow _ (List.mem_cons_of_mem _ ?_)
  exact List.mem_map_of_mem (List.mem_range.mpr (Nat.succ_lt_succ hi))

/-- A bucket that holds the columns of a row shows them. -/
theorem BucketOf.shows (hasc : aggs.Ascending)
    (hrow : row.map Prod.fst = numberedNames aggs.length) (hb : BucketOf aggs row b) :
    ∃ members, b.toJson = .object members ∧ Shows aggs row members := by
  have hnumber := mem_mapValues_metricJson hb
  -- There is a column at each place, so the last aggregation of a field has a number.
  have hcolumn : ∀ field i, LastOnField aggs field i →
      ∃ c, row.get? (functionName (i + 1)) = some c := by
    rintro field i ⟨label, a, hi, -⟩
    exact exists_get?_number hrow (List.getElem?_eq_some_iff.mp hi).1
  have hnames : ∀ field, field ∈ (b.metrics.mapValues metricJson).map Prod.fst ↔
      field ∈ subFields aggs := by
    intro field
    rw [mem_subFields_iff_last hasc]
    constructor
    · intro hmem
      obtain ⟨⟨_, v⟩, hv, rfl⟩ := List.mem_map.mp hmem
      obtain ⟨i, c, hlast, -⟩ := (hnumber _ v).mp hv
      exact ⟨i, hlast⟩
    · rintro ⟨i, hlast⟩
      obtain ⟨c, hc⟩ := hcolumn field i hlast
      exact List.mem_map_of_mem ((hnumber field _).mpr ⟨i, c, hlast, hc, rfl⟩)
  have hnodup : ((b.metrics.mapValues metricJson).map Prod.fst).Nodup := by
    refine List.pairwise_map.mpr ?_
    exact (Named.ascending_map hb.ascending fun _ => metricJson).imp fun hlt => ne_of_lt hlt
  obtain ⟨k, hk, hkey⟩ := hb.key
  obtain ⟨n, hn, hcount⟩ := hb.count
  refine ⟨_, rfl, ⟨k, hk, by rw [← hkey]; rfl⟩, ⟨n, hn, by rw [← hcount]; rfl⟩, ?_, hnumber, ?_, ?_⟩
  · refine (List.perm_ext_iff_of_nodup hnodup (List.nodup_dedup _)).mpr fun field => ?_
    rw [List.mem_dedup]
    exact hnames field
  · intro hfields i e field hi hon
    have hlast := lastOnField_of_nodup hasc hfields hi hon
    obtain ⟨c, hc⟩ := hcolumn field i hlast
    exact ⟨c, hc, (hnumber field _).mpr ⟨i, c, hlast, hc, rfl⟩⟩
  · intro hnokey hnocount
    have hnocount' : "doc_count" ∉ (b.metrics.mapValues metricJson).map Prod.fst :=
      fun hmem => hnocount ((hnames _).mp hmem)
    refine List.nodup_cons.mpr ⟨?_, List.nodup_cons.mpr ⟨hnocount', hnodup⟩⟩
    intro hmem
    rcases List.mem_cons.mp hmem with heq | hmem
    · exact absurd (show "key" = "doc_count" from heq) (by decide)
    · exact hnokey ((hnames _).mp hmem)

end

/-! ## Buckets of plans -/

/-- What is returned for rows by the node of an aggregation that makes buckets. -/
structure ShowsBuckets (index : String) (ps : List Sql.Expr) (a : Aggregate) (bucketField : String)
    (n : AggregationNode) : Prop where
  /-- Each aggregation under the buckets has a field, -/
  fields : (subFields a.aggs).length = a.aggs.length
  /-- and the column at its place is its own. -/
  number : ∀ i label sub, a.aggs[i]? = some (label, sub) → ∃ d s,
    PlannedSub index ps bucketField (label, sub) (d, s) ∧
      n.statement.columns[i + 2]? = some ⟨.subselect s, functionName (i + 1)⟩
  /-- Each row with these columns is returned as an object that shows it. -/
  rows : ∀ rows : List Row, (∀ row ∈ rows, row.map Prod.fst = Node.names (.aggregation n)) →
    ∃ result buckets, assemble (.aggregation n) rows = .ok (n.label, result) ∧
      result.toJson = .object
        [("doc_count_error_upper_bound", .ofNat 0), ("buckets", .array buckets)] ∧
      List.Forall₂ (fun row bucket => ∃ members, bucket = .object members ∧
        Shows a.aggs row members) rows buckets

section

variable {index : String} {ps : List Sql.Expr}

/-- Aggregations that are planned as numbers have a field each. -/
theorem length_subFields {bucketField : String} {aggs : Named Aggregate}
    (h : ∀ e ∈ aggs, ∃ x, PlannedSub index ps bucketField e x) :
    (subFields aggs).length = aggs.length := by
  refine List.filterMap_length_eq_length.mpr fun e he => ?_
  obtain ⟨_, hkind, -, -⟩ := h e he
  simp [fieldOf?, hkind, Except.toOption]

/-- Buckets that are assembled are returned with all that they hold. -/
theorem AssemblesBuckets.shows {a : Aggregate} {kind : AggregateKind} {n : AggregationNode}
    (hasc : Named.Ascending a.aggs) (h : AssemblesBuckets index ps a kind n) :
    ShowsBuckets index ps a kind.field n where
  fields := by
    have hplanned : ∀ e ∈ a.aggs, ∃ x, PlannedSub index ps kind.field e x := by
      rintro ⟨label, sub⟩ he
      obtain ⟨i, hi⟩ := List.mem_iff_getElem?.mp he
      obtain ⟨d, s, hsub, -⟩ := h.number i label sub hi
      exact ⟨(d, s), hsub⟩
    exact length_subFields hplanned
  number := h.number
  rows rows hrows := by
    obtain ⟨bs, hbs, hbuckets⟩ := h.rows rows hrows
    refine ⟨.buckets bs, bs.map Bucket.toJson, hbs, rfl, ?_⟩
    rw [List.forall₂_map_right_iff]
    have hboth := (List.forall₂_and_left _ _).mpr ⟨hrows, hbuckets⟩
    exact hboth.imp fun row b hb => hb.2.shows hasc (hb.1.trans h.names)

end

/-- Whatever a plan returns for a row of a bucket is there: the key, the count, and for each field
of the aggregations under the buckets the number of the last one on it. -/
theorem compile_shows {index : String} {r : SearchRequest} {p : Plan} (hr : r.Ordered)
    (h : compile index r = .ok p) :
    ∃ ps, PlannedWith index r p ps ∧ List.Forall₂ (fun e n => n.label = e.1 ∧
      ∀ kind, e.2.kind = .ok kind → kind.type.isBucket = true →
        ShowsBuckets index ps e.2 kind.field n) r.aggs p.aggregations := by
  obtain ⟨ps, hps⟩ := compile_eq_ok.mp h
  refine ⟨ps, hps, ?_⟩
  have hboth := (List.forall₂_and_left _ _).mpr ⟨hr.ascending_under, hps.aggregations⟩
  refine hboth.imp ?_
  rintro e n ⟨hasc, hplanned⟩
  obtain ⟨hlabel, kind, hkind, hassembles⟩ := hplanned.assembles hasc
  refine ⟨hlabel, fun kind' hkind' hbucket => ?_⟩
  rw [hkind] at hkind'
  cases hkind'
  rw [if_pos hbucket] at hassembles
  exact hassembles.shows hasc

/-- The buckets of the example are returned with all that they hold. -/
theorem compile_shows_example : exampleRequest.Ordered ∧
    ∃ p, compile "logs" exampleRequest = .ok p ∧ ∃ ps, PlannedWith "logs" exampleRequest p ps ∧
      List.Forall₂ (fun e n => n.label = e.1 ∧
        ∀ kind, e.2.kind = .ok kind → kind.type.isBucket = true →
          ShowsBuckets "logs" ps e.2 kind.field n) exampleRequest.aggs p.aggregations :=
  ⟨exampleRequest_ordered, _, rfl, compile_shows exampleRequest_ordered rfl⟩

/-! ## Fields that are not apart -/

/-- Under the buckets there are two aggregations on one field, and one on a field with the name of a
member that every bucket has. -/
def clashingRequest : SearchRequest where
  aggs :=
    [("services",
      { terms := some { field := "service" }
        aggs := [("largest", { max := some { field := "key" } }),
                 ("mean", { avg := some { field := "latency" } }),
                 ("slowest", { max := some { field := "latency" } })] })]

/-- A row of these buckets, with the numbers in the order of the aggregations. -/
def clashingRow : Row :=
  (numberedNames 3).zip [.text "a", .int 2, .int 1, .int 7, .int 9]

/-- The first number on a field that is named twice is in no member, and the name of the key is that
of two members. -/
theorem not_shows_each : ∃ p n bucket members, compile "logs" clashingRequest = .ok p ∧
    p.aggregations = [n] ∧ clashingRow.map Prod.fst = Node.names (.aggregation n) ∧
    assemble (.aggregation n) [clashingRow] = .ok ("services", .buckets [bucket]) ∧
    bucket.toJson = .object members ∧
    members = [("key", .string "a"), ("doc_count", .ofInt 2), ("key", metricJson (.ofInt 1)),
      ("latency", metricJson (.ofInt 9))] ∧
    ¬ (members.map Prod.fst).Nodup ∧ ∀ name, (name, metricJson (.ofInt 7)) ∉ members := by
  refine ⟨_, _, _, [("key", .string "a"), ("doc_count", .ofInt 2), ("key", metricJson (.ofInt 1)),
    ("latency", metricJson (.ofInt 9))], rfl, rfl, rfl, rfl, rfl, rfl, by decide, ?_⟩
  intro name
  simp [metricJson, Json.ofInt]

end Quarry.Plan
