/-
# Requests come back from every way to write them

* `Optionally.reads`, `OneOrMany.reads`, `ByName.reads` — what each shape writes is read.
* `Query.Renders.reads`, `Aggregate.Renders.reads` — queries and aggregations come back.
* `SortKeysRender.reads` — so do sort keys.
* `SearchRequest.ofJson_of_renders` — a request that was read comes back from every way to write it.
-/
import Quarry.Proofs.Request.Agreement
import Quarry.Proofs.Request.Ordered
import Quarry.Proofs.Request.Renderings

namespace Quarry.Request

open Quarry.Json Quarry.Outcome

/-! ## Shapes -/

section

variable {α ρ : Type} {R : α → Json → Prop} {d : Decoder α} {r : Record ρ} {name : String}
  {ms : List (String × Json)} {a : ρ}

/-- What may be absent is read if each thing that may be there is. -/
theorem Optionally.reads {x : Option α} {w : Option Json} (h : Optionally R x w)
    (hd : ∀ b v, x = some b → R b v → d.Reads v b) (hnull : ∀ b, d .null ≠ .ok b) :
    (Decoder.optional d).ReadsOptional w x := by
  refine ⟨fun v hw => ?_, fun hw => ?_⟩
  · subst hw
    cases h with
    | null => rfl
    | @present b v hv =>
      have hread := hd b v rfl hv
      refine Decoder.optional_eq_ok.mpr (.inr ⟨?_, map_eq_ok.mpr ⟨b, hread, rfl⟩⟩)
      -- What writes a thing is not taken for nothing.
      intro heq
      rw [Decoder.Reads, heq] at hread
      exact hnull b hread
  · subst hw
    cases h
    rfl

theorem Optionally.readField {x : Option α} (h : Optionally R x (Named.get? name ms))
    (hd : ∀ b v, x = some b → R b v → d.Reads v b) (hnull : ∀ b, d .null ≠ .ok b)
    {f : Option α → ρ} (hset : ∀ o, r.set name o a = (Decoder.optional d o).map f)
    (hnone : f none = a) : r.readField name (Record.kept ms name) a = .ok (f x) :=
  Record.readField_of_optional (h.reads hd hnull) hset hnone

/-- The elements of an array are read in turn. -/
theorem reads_items {as : List α} {vs : List Json} (h : List.Forall₂ R as vs)
    (hd : ∀ b ∈ as, ∀ v, R b v → d.Reads v b) :
    Decoder.items d (Outline.itemsOfJson (sortedItems vs)) .complete = .ok as := by
  induction h with
  | nil => rfl
  | @cons b v as vs hv _ ih =>
    obtain ⟨hfirst, hd⟩ := List.forall_mem_cons.mp hd
    rw [sortedItems, Outline.itemsOfJson, Decoder.items, show d (.ofJson v.sorted) = .ok b from
      hfirst v hv, ih hd]
    rfl

theorem OneOrMany.reads {as : List α} {v : Json} (h : OneOrMany R as (some v))
    (hd : ∀ b ∈ as, ∀ v, R b v → d.Reads v b) : (oneOrMany d).Reads v as := by
  cases h with
  | null => rfl
  | @one b ms hv =>
    have hread := hd b List.mem_cons_self _ hv
    exact map_eq_ok.mpr ⟨b, hread, rfl⟩
  | many hall => exact reads_items hall hd

theorem OneOrMany.readField {as : List α} (h : OneOrMany R as (Named.get? name ms))
    (hd : ∀ b ∈ as, ∀ v, R b v → d.Reads v b) {f : List α → ρ}
    (hset : ∀ o, r.set name o a = (oneOrMany d o).map f) (hnil : f [] = a) :
    r.readField name (Record.kept ms name) a = .ok (f as) := by
  refine Record.readField_of_reads (fun v hv => ?_) (fun hv => ?_) hset
  · rw [hv] at h
    exact h.reads hd
  · rw [hv] at h
    cases h
    exact hnil

theorem Many.readField {as : List α} (h : Many R as (Named.get? name ms))
    (hd : ∀ b ∈ as, ∀ v, R b v → d.Reads v b) {f : List α → ρ}
    (hset : ∀ o, r.set name o a = (Decoder.list d o).map f) (hnil : f [] = a) :
    r.readField name (Record.kept ms name) a = .ok (f as) := by
  refine Record.readField_of_reads (fun v hv => ?_) (fun hv => ?_) hset
  · rw [hv] at h
    cases h with
    | many hall => exact reads_items hall hd
  · rw [hv] at h
    cases h
    exact hnil

/-- A record is read from an object if it is from the members of one. -/
theorem ObjectOf.reads {S : α → List (String × Json) → Prop} {b : α} {v : Json}
    (h : ObjectOf S b v)
    (hS : ∀ ms, (ms.map Prod.fst).Nodup → S b ms → d.Reads (.object ms) b) : d.Reads v b := by
  cases h with
  | intro hms hmembers => exact hS _ hms hmembers

/-- Things by name are read under their names. -/
theorem ByName.reads {l : Named α} {v : Json} (h : ByName R l v) (hl : l.Ascending)
    (hd : ∀ e ∈ l, ∀ v, R e.2 v → d.Reads v e.2) : (Decoder.namedOf d).Reads v l := by
  cases h with
  | @intro ms hms hall =>
    refine (Decoder.members_eq_ok (namesOnce_kept ms) Named.ascending_nil).mpr
      ⟨Outline.named_membersOfJson _, rfl, hl, fun name o ho => ?_, fun name hnone => ?_⟩
    · rw [find?_kept hms] at ho
      obtain ⟨v, hv, rfl⟩ := Option.map_eq_some_iff.mp ho
      have hrel := hall name
      rw [hv] at hrel
      generalize hget : l.get? name = x at hrel
      cases hrel with
      | some hR => exact ⟨_, hd _ (Named.mem_of_get? hget) v hR, rfl⟩
    · rw [find?_kept hms, Option.map_eq_none_iff] at hnone
      have hrel := hall name
      rw [hnone] at hrel
      generalize hget : l.get? name = x at hrel ⊢
      cases hrel
      rfl

theorem reads_text {s : String} {v : Json} (h : IsText s v) : Decoder.string.Reads v s := by
  cases h
  rfl

theorem reads_scalarText {s : String} {v : Json} (h : IsText s v) : scalarText.Reads v s := by
  cases h
  rfl

theorem reads_truth {b : Bool} {v : Json} (h : IsTruth b v) : Decoder.boolean.Reads v b := by
  cases h
  rfl

theorem reads_count {n : Nat} {v : Json} (h : IsCount n v) : Decoder.size.Reads v n := by
  cases h
  show Decoder.size (.number (.int n)) = .ok n
  rw [Decoder.size, if_pos (Int.natCast_nonneg n)]
  rfl

/-! Of these none is read from `null`, so that each may be absent. -/

theorem Optionally.readText {x : Option String} (h : Optionally IsText x (Named.get? name ms))
    {f : Option String → ρ} (hset : ∀ o, r.set name o a = (Decoder.optional Decoder.string o).map f)
    (hnone : f none = a) : r.readField name (Record.kept ms name) a = .ok (f x) :=
  h.readField (fun _ _ _ => reads_text) (fun _ h => by cases h) hset hnone

theorem Optionally.readScalarText {x : Option String}
    (h : Optionally IsText x (Named.get? name ms)) {f : Option String → ρ}
    (hset : ∀ o, r.set name o a = (Decoder.optional scalarText o).map f) (hnone : f none = a) :
    r.readField name (Record.kept ms name) a = .ok (f x) :=
  h.readField (fun _ _ _ => reads_scalarText) (fun _ h => by cases h) hset hnone

theorem Optionally.readTruth {x : Option Bool} (h : Optionally IsTruth x (Named.get? name ms))
    {f : Option Bool → ρ} (hset : ∀ o, r.set name o a = (Decoder.optional Decoder.boolean o).map f)
    (hnone : f none = a) : r.readField name (Record.kept ms name) a = .ok (f x) :=
  h.readField (fun _ _ _ => reads_truth) (fun _ h => by cases h) hset hnone

theorem Optionally.readCount {x : Option Nat} (h : Optionally IsCount x (Named.get? name ms))
    {f : Option Nat → ρ} (hset : ∀ o, r.set name o a = (Decoder.optional Decoder.size o).map f)
    (hnone : f none = a) : r.readField name (Record.kept ms name) a = .ok (f x) :=
  h.readField (fun _ _ _ => reads_count) (fun _ h => by cases h) hset hnone

end

/-! ## Queries -/

section

variable {ms : List (String × Json)}

theorem TermValue.Spelled.reads {t : TermValue} (hms : (ms.map Prod.fst).Nodup)
    (h : t.Spelled ms) : Decoder.Reads TermValue.record.decode (.object ms) t := by
  refine record_independent.reads_object hms ?_ ?_
  · exact List.forall_mem_singleton.mpr ⟨_, h.value⟩
  · exact Record.readFields_cons (Record.readField_of_get? h.value rfl) <|
      Record.readFields_cons (h.boost.readScalarText (fun _ => rfl) rfl) <|
      Record.readFields_cons (h.caseInsensitive.readTruth (fun _ => rfl) rfl) rfl

theorem TermValue.Renders.reads {t : TermValue} {v : Json} (h : t.Renders v) :
    TermValue.decode.Reads v t := by
  cases h with
  | bare text => rfl
  | spelled h => exact h.reads fun _ hms h => h.reads hms

theorem MatchValue.Spelled.reads {m : MatchValue} (hms : (ms.map Prod.fst).Nodup)
    (h : m.Spelled ms) : Decoder.Reads MatchValue.record.decode (.object ms) m := by
  refine record_independent.reads_object hms ?_ ?_
  · exact List.forall_mem_singleton.mpr ⟨_, h.query⟩
  · exact Record.readFields_cons (Record.readField_of_get? h.query rfl) <|
      Record.readFields_cons (h.fuzziness.readScalarText (fun _ => rfl) rfl) <|
      Record.readFields_cons (h.operator.readText (fun _ => rfl) rfl) rfl

theorem MatchValue.Renders.reads {m : MatchValue} {v : Json} (h : m.Renders v) :
    MatchValue.decode.Reads v m := by
  cases h with
  | bare text => rfl
  | spelled h => exact h.reads fun _ hms h => h.reads hms

/-- A bound comes back if a string of its numeral gives it. -/
theorem Bound.Renders.reads {b : Bound} {v : Json} (h : b.Renders v) (hb : b.Canonical) :
    Bound.decode.Reads v b := by
  cases h with
  | int n => rfl
  | text numeral =>
    show Bound.decode (.string numeral) = _
    rw [Bound.decode, hb rfl]

theorem RangeParams.Spelled.reads {p : RangeParams} (hms : (ms.map Prod.fst).Nodup)
    (h : p.Spelled ms) (hp : p.Canonical) :
    Decoder.Reads RangeParams.record.decode (.object ms) p := by
  have hbound : ∀ x ∈ [p.gt, p.gte, p.lt, p.lte, p.lowerFrom, p.upperTo], ∀ b v, x = some b →
      b.Renders v → Bound.decode.Reads v b := fun x hx b v hb hv => hv.reads (hp x hx b hb)
  simp only [List.forall_mem_cons, List.not_mem_nil, IsEmpty.forall_iff, implies_true,
    and_true] at hbound
  obtain ⟨hgt, hgte, hlt, hlte, hfrom, hto⟩ := hbound
  refine record_independent.reads_object hms (List.forall_mem_nil _) ?_
  exact Record.readFields_cons (h.gt.readField hgt (fun _ h => by cases h) (fun _ => rfl) rfl) <|
    Record.readFields_cons (h.gte.readField hgte (fun _ h => by cases h) (fun _ => rfl) rfl) <|
    Record.readFields_cons (h.lt.readField hlt (fun _ h => by cases h) (fun _ => rfl) rfl) <|
    Record.readFields_cons (h.lte.readField hlte (fun _ h => by cases h) (fun _ => rfl) rfl) <|
    Record.readFields_cons
      (h.lowerFrom.readField hfrom (fun _ h => by cases h) (fun _ => rfl) rfl) <|
    Record.readFields_cons (h.upperTo.readField hto (fun _ h => by cases h) (fun _ => rfl) rfl) <|
    Record.readFields_cons (h.format.readText (fun _ => rfl) rfl) <|
    Record.readFields_cons (h.includeLower.readTruth (fun _ => rfl) rfl) <|
    Record.readFields_cons (h.includeUpper.readTruth (fun _ => rfl) rfl) <|
    Record.readFields_cons (h.boost.readScalarText (fun _ => rfl) rfl) rfl

theorem QueryString.Spelled.reads {q : QueryString} (hms : (ms.map Prod.fst).Nodup)
    (h : q.Spelled ms) : Decoder.Reads QueryString.record.decode (.object ms) q := by
  have hquery : record.readField "query" (Record.kept ms "query") {} =
      .ok { query := q.query } := by
    rcases h.query with hget | ⟨hget, hempty⟩
    · rw [Record.kept, hget]
      rfl
    · rw [Record.kept, hget, hempty]
      rfl
  refine record_independent.reads_object hms (List.forall_mem_nil _) ?_
  exact Record.readFields_cons hquery <|
    Record.readFields_cons (h.defaultField.readText (fun _ => rfl) rfl) rfl

/-- Combined queries come back if each query in them does. -/
theorem BoolQuery.Spelled.reads {R : Query → Json → Prop} {query : Decoder Query}
    {b : BoolQuery Query} (hms : (ms.map Prod.fst).Nodup) (h : BoolQuery.Spelled R b ms)
    (hquery : ∀ p ∈ b.must ++ b.should ++ b.filter, ∀ v, R p v → query.Reads v p) :
    Decoder.Reads (BoolQuery.record query).decode (.object ms) b := by
  simp only [List.forall_mem_append] at hquery
  obtain ⟨⟨hmust, hshould⟩, hfilter⟩ := hquery
  refine (record_independent query).reads_object hms (List.forall_mem_nil _) ?_
  exact Record.readFields_cons (h.must.readField hmust (fun _ => rfl) rfl) <|
    Record.readFields_cons (h.should.readField hshould (fun _ => rfl) rfl) <|
    Record.readFields_cons (h.filter.readField hfilter (fun _ => rfl) rfl) rfl

/-- A query comes back if each query in it does. -/
theorem Query.Spelled.reads {R : Query → Json → Prop} {query : Decoder Query} {q : Query}
    (hms : (ms.map Prod.fst).Nodup) (h : Query.Spelled R q ms) (hq : q.Canonical)
    (hquery : ∀ p v, p.Canonical → R p v → query.Reads v p) :
    Decoder.Reads (Query.record query).decode (.object ms) q := by
  cases hq with
  | intro q hterm hmatching hrange hbool =>
    refine (record_independent query).reads_object hms (List.forall_mem_nil _) ?_
    have hrangeReads : ∀ l v, q.range = some l → ByName (ObjectOf RangeParams.Spelled) l v →
        (Decoder.namedOf RangeParams.record.decode).Reads v l := by
      intro l v hl hv
      obtain ⟨hascending, hcanonical⟩ := hrange l hl
      exact hv.reads hascending fun e he w hw =>
        hw.reads fun _ hms h => h.reads hms (hcanonical e he)
    have hboolReads : ∀ b v, q.bool = some b → ObjectOf (BoolQuery.Spelled R) b v →
        Decoder.Reads (BoolQuery.record query).decode v b := fun b v hb hv =>
      hv.reads fun _ hms h => h.reads hms fun p hp w hw => hquery p w (hbool b hb p hp) hw
    -- Queries nest, so that a query is made of its fields only by cases.
    cases q
    exact Record.readFields_cons (h.term.readField
        (fun l v hl hv => hv.reads (hterm l hl) fun _ _ _ hw => hw.reads)
        (fun _ h => by cases h) (fun _ => rfl) rfl) <|
      Record.readFields_cons (h.matching.readField
        (fun l v hl hv => hv.reads (hmatching l hl) fun _ _ _ hw => hw.reads)
        (fun _ h => by cases h) (fun _ => rfl) rfl) <|
      Record.readFields_cons (h.bool.readField hboolReads
        (fun _ h => by cases h) (fun _ => rfl) rfl) <|
      Record.readFields_cons (h.range.readField hrangeReads
        (fun _ h => by cases h) (fun _ => rfl) rfl) <|
      Record.readFields_cons (h.queryString.readField
        (fun _ _ _ hv => hv.reads fun _ hms h => h.reads hms)
        (fun _ h => by cases h) (fun _ => rfl) rfl) rfl

/-- A query comes back from every way to write it. -/
theorem Query.Renders.reads {q : Query} {v : Json} (h : q.Renders v) (hq : q.Canonical) :
    Query.decode.Reads v q := by
  obtain ⟨n, h⟩ := h
  induction n generalizing q v with
  | zero => cases h
  | succ n ih =>
    cases h with
    | intro hms h =>
      rw [Decoder.Reads, Query.decode_eq]
      exact h.reads hms hq fun p v hp hv => ih hp hv

/-! ## Aggregations -/

theorem TermsAgg.Spelled.reads {t : TermsAgg} (hms : (ms.map Prod.fst).Nodup)
    (h : t.Spelled ms) : Decoder.Reads TermsAgg.record.decode (.object ms) t := by
  refine record_independent.reads_object hms ?_ ?_
  · exact List.forall_mem_singleton.mpr ⟨_, h.field⟩
  · exact Record.readFields_cons (Record.readField_of_get? h.field rfl) <|
      Record.readFields_cons (h.size.readCount (fun _ => rfl) rfl) rfl

theorem DateHistogramAgg.Spelled.reads {t : DateHistogramAgg} (hms : (ms.map Prod.fst).Nodup)
    (h : t.Spelled ms) : Decoder.Reads DateHistogramAgg.record.decode (.object ms) t := by
  refine record_independent.reads_object hms ?_ ?_
  · exact List.forall_mem_singleton.mpr ⟨_, h.field⟩
  · exact Record.readFields_cons (Record.readField_of_get? h.field rfl) <|
      Record.readFields_cons (h.buckets.readCount (fun _ => rfl) rfl) <|
      Record.readFields_cons (h.fixedInterval.readText (fun _ => rfl) rfl) <|
      Record.readFields_cons (h.calendarInterval.readText (fun _ => rfl) rfl) rfl

theorem FieldAgg.Spelled.reads {f : FieldAgg} (hms : (ms.map Prod.fst).Nodup)
    (h : f.Spelled ms) : Decoder.Reads FieldAgg.record.decode (.object ms) f := by
  refine record_independent.reads_object hms ?_ ?_
  · exact List.forall_mem_singleton.mpr ⟨_, h.field⟩
  · exact Record.readFields_cons (Record.readField_of_get? h.field rfl) <|
      Record.readFields_cons (h.missing.readScalarText (fun _ => rfl) rfl) rfl

/-- The aggregations under the longer name are taken if there are any. -/
theorem pickAggregates_of_ne_nil {l : Named Aggregate} (h : l ≠ [])
    (aggs : Option (Named Aggregate)) : pickAggregates aggs (some l) = l := by
  cases l with
  | nil => exact absurd rfl h
  | cons a rest => rfl

/-- The aggregations under the shorter name are taken if there are none under the longer one. -/
theorem pickAggregates_of_nil {aggregations : Option (Named Aggregate)}
    (h : aggregations.getD [] = []) (aggs : Option (Named Aggregate)) :
    pickAggregates aggs aggregations = aggs.getD [] := by
  cases aggregations with
  | none => rfl
  | some l =>
    cases show l = [] from h
    rfl

/-- No aggregations are read from what gives none. -/
theorem GivesNone.reads {d : Decoder Aggregate} {w : Option Json} (h : GivesNone w) :
    ∃ x, (decodeAggregates d).ReadsOptional w x ∧ x.getD [] = [] := by
  cases h with
  | absent => exact ⟨none, ⟨fun v hv => (by cases hv), fun _ => rfl⟩, rfl⟩
  | null => exact ⟨none, ⟨fun v hv => (by cases hv; rfl), fun _ => rfl⟩, rfl⟩
  | empty => exact ⟨some [], ⟨fun v hv => (by cases hv; rfl), fun hv => (by cases hv)⟩, rfl⟩

/-- Of what is read under the two names, the aggregations are taken. -/
theorem AggregatesRender.reads {R : Aggregate → Json → Prop} {l : Named Aggregate}
    {aggregations aggs : Option Json} (h : AggregatesRender R l aggregations aggs)
    (hl : l.Ascending) (hR : ∀ e ∈ l, ∀ v, R e.2 v → Aggregate.decode.Reads v e.2) :
    ∃ x y, (decodeAggregates Aggregate.decode).ReadsOptional aggs x ∧
      (decodeAggregates Aggregate.decode).ReadsOptional aggregations y ∧
      pickAggregates x y = l := by
  have hname : ∀ v, ByName R l v →
      (decodeAggregates Aggregate.decode).ReadsOptional (some v) (some l) := by
    intro v hv
    have hpresent : Optionally (ByName R) (some l) (some v) := .present hv
    exact hpresent.reads (fun l' v hl' hv => (by cases hl'; exact hv.reads hl hR))
      fun _ h => by cases h
  cases h with
  | aggregations hne hv haggs =>
    -- What stands under the shorter name is read too, though it is not taken.
    cases aggs with
    | none =>
      exact ⟨none, some l, ⟨fun w hw => (by cases hw), fun _ => rfl⟩, hname _ hv,
        pickAggregates_of_ne_nil hne none⟩
    | some w =>
      obtain ⟨x, hx⟩ := haggs w rfl
      refine ⟨x, some l, ⟨fun u hu => ?_, fun hu => (by cases hu)⟩, hname _ hv,
        pickAggregates_of_ne_nil hne x⟩
      cases hu
      exact hx
  | aggs hnone hv =>
    obtain ⟨y, hy, hnil⟩ := hnone.reads (d := Aggregate.decode)
    exact ⟨some l, y, hname _ hv, hy, pickAggregates_of_nil hnil _⟩
  | nothing hnone hnone' =>
    obtain ⟨y, hy, hnil⟩ := hnone.reads (d := Aggregate.decode)
    obtain ⟨x, hx, hnil'⟩ := hnone'.reads (d := Aggregate.decode)
    exact ⟨x, y, hx, hy, (pickAggregates_of_nil hnil x).trans hnil'⟩

/-- An aggregation comes back if each aggregation in it does. -/
theorem Aggregate.Spelled.reads {R : Aggregate → Json → Prop} {a : Aggregate}
    (hms : (ms.map Prod.fst).Nodup) (h : Aggregate.Spelled R a ms)
    (hlabels : Named.Ascending a.aggs)
    (hR : ∀ e ∈ a.aggs, ∀ v, R e.2 v → Aggregate.decode.Reads v e.2) :
    Aggregate.decode.Reads (.object ms) a := by
  -- The two names are read apart, and made one only when the aggregation is settled.
  obtain ⟨x, y, hx, hy, hpick⟩ := h.aggs.reads hlabels hR
  have hread : Decoder.Reads (RawAggregate.record Aggregate.decode).decode (.object ms)
      ⟨{ a with aggs := [] }, x, y⟩ := by
    refine (RawAggregate.record_independent _).reads_object hms (List.forall_mem_nil _) ?_
    exact Record.readFields_cons (h.terms.readField
        (fun _ _ _ hv => hv.reads fun _ hms h => h.reads hms)
        (fun _ h => by cases h) (fun _ => rfl) rfl) <|
      Record.readFields_cons (h.dateHistogram.readField
        (fun _ _ _ hv => hv.reads fun _ hms h => h.reads hms)
        (fun _ h => by cases h) (fun _ => rfl) rfl) <|
      Record.readFields_cons (h.avg.readField
        (fun _ _ _ hv => hv.reads fun _ hms h => h.reads hms)
        (fun _ h => by cases h) (fun _ => rfl) rfl) <|
      Record.readFields_cons (h.max.readField
        (fun _ _ _ hv => hv.reads fun _ hms h => h.reads hms)
        (fun _ h => by cases h) (fun _ => rfl) rfl) <|
      Record.readFields_cons (Record.readField_of_optional hx (fun _ => rfl) rfl) <|
      Record.readFields_cons (Record.readField_of_optional hy (fun _ => rfl) rfl) rfl
  rw [Decoder.Reads, Aggregate.decode_eq, map_eq_ok]
  refine ⟨_, hread, ?_⟩
  rw [RawAggregate.settle, hpick]
  -- Aggregations nest, so that an aggregation is made of its fields only by cases.
  cases a
  rfl

/-- An aggregation comes back from every way to write it. -/
theorem Aggregate.Renders.reads {a : Aggregate} {v : Json} (h : a.Renders v) (ha : a.Ordered) :
    Aggregate.decode.Reads v a := by
  obtain ⟨n, h⟩ := h
  induction n generalizing a v with
  | zero => cases h
  | succ n ih =>
    cases ha with
    | intro a hlabels hall =>
      cases h with
      | intro hms h => exact h.reads hms hlabels fun e he v hv => ih (hall e he) hv

/-! ## Sort keys -/

/-- A keyword is read in any letter case. -/
theorem SortDirection.Spells.ofName {d : SortDirection} {text : String} (h : d.Spells text) :
    SortDirection.ofName text = .ok d := by
  rw [SortDirection.ofName, show asciiLower text = asciiLower d.keyword from h]
  cases d <;> rfl

/-- A direction comes back from every way to write it. -/
theorem SortDirection.Renders.reads {d : SortDirection} {v : Json} (h : d.Renders v) :
    ∃ order, decodeOrder.Reads v order ∧ directionOf order = .ok d := by
  cases h with
  | @keyword text htext =>
    exact ⟨some text, (decodeOrder_iff (writes_sorted _)).mpr (.inl ⟨text, rfl, rfl⟩),
      htext.ofName⟩
  | spelled h =>
    cases h with
    | @intro ms hms h =>
      obtain ⟨text, hget, htext⟩ := h.order
      obtain ⟨mode, hmode⟩ := h.mode
      have horder : sortOptions.readField "order" (Record.kept ms "order") none =
          .ok (some text) := Record.readField_of_get? hget rfl
      refine ⟨some text, (decodeOrder_iff (writes_sorted _)).mpr
        (.inr ⟨fun name hname => (by cases hname), ?_⟩), htext.ofName⟩
      refine sortOptions_independent.reads_object hms (List.forall_mem_nil _) ?_
      -- The mode is read and left out.
      have hkept : sortOptions.readField "mode" (Record.kept ms "mode") (some text) =
          .ok (some text) :=
        hmode.readField (f := fun _ => some text) (fun _ _ _ => reads_text)
          (fun _ h => by cases h) (fun _ => rfl) rfl
      exact Record.readFields_cons horder <| Record.readFields_cons hkept rfl

/-- Directions that stand under names are read as the keys of an object. -/
theorem decodeEntries_of_forall₂ {l : Named SortDirection} {vs : Named Json}
    (h : List.Forall₂ (fun e m => e.1 = m.1 ∧ ∃ v, m.2 = v.sorted ∧ e.2.Renders v) l vs) :
    decodeEntries (Outline.membersOfJson vs) .complete =
      .ok (l.map fun e => ⟨e.1, e.2⟩) := by
  induction h with
  | nil => rfl
  | @cons e m l vs hfirst _ ih =>
    obtain ⟨name, d⟩ := e
    obtain ⟨other, w⟩ := m
    obtain ⟨rfl, v, rfl, hv⟩ := hfirst
    obtain ⟨order, horder, hdirection⟩ := hv.reads
    exact bind_eq_ok.mpr ⟨name, rfl, bind_eq_ok.mpr ⟨order, horder, bind_eq_ok.mpr
      ⟨d, hdirection, bind_eq_ok.mpr ⟨_, ih, rfl⟩⟩⟩⟩

/-- Keys of ascending fields come back from an object. -/
theorem reads_sortItem {group : List SortEntry} {v : Json}
    (h : ByName SortDirection.Renders (directions group) v)
    (hascending : (directions group).Ascending) : decodeSortItem.Reads v group := by
  cases h with
  | @intro ms hms hall =>
    have hkept : List.Forall₂ (fun e m => e.1 = m.1 ∧ ∃ v, m.2 = v.sorted ∧ e.2.Renders v)
        (directions group) (Named.ofList (sortedMembers ms)) := by
      refine Named.forall₂_of_get? (R := fun _ d w => ∃ v, w = v.sorted ∧ d.Renders v) hascending
        (Named.ascending_ofList _) fun name => ?_
      rw [Named.get?_ofList (by rwa [fst_sortedMembers]), get?_sortedMembers]
      have hrel := hall name
      generalize Named.get? name (directions group) = x at hrel
      generalize Named.get? name ms = w at hrel
      cases hrel with
      | none => exact .none
      | some hv => exact .some ⟨_, rfl, hv⟩
    have hentries : (directions group).map (fun e => ⟨e.1, e.2⟩) = group :=
      List.map_map.trans (List.map_id group)
    exact (decodeEntries_of_forall₂ hkept).trans (congrArg _ hentries)

/-- Sort keys come back from every way to write them. -/
theorem SortKeysRender.reads {keys : List SortEntry} {vs : List Json}
    (h : SortKeysRender keys vs) :
    ∃ groups, Decoder.items decodeSortItem (Outline.itemsOfJson (sortedItems vs)) .complete =
      .ok groups ∧ groups.flatten = keys := by
  induction h with
  | nil => exact ⟨[], rfl, rfl⟩
  | @field name keys vs _ ih =>
    obtain ⟨groups, hgroups, rfl⟩ := ih
    exact ⟨[⟨name, .asc⟩] :: groups,
      bind_eq_ok.mpr ⟨_, rfl, bind_eq_ok.mpr ⟨groups, hgroups, rfl⟩⟩, rfl⟩
  | @object group keys v vs hascending hv _ ih =>
    obtain ⟨groups, hgroups, rfl⟩ := ih
    exact ⟨group :: groups, bind_eq_ok.mpr ⟨group, reads_sortItem hv hascending,
      bind_eq_ok.mpr ⟨groups, hgroups, rfl⟩⟩, rfl⟩

theorem SortRenders.reads {keys : List SortEntry} {v : Json} (h : SortRenders keys (some v)) :
    decodeSort.Reads v keys := by
  cases h with
  | null => rfl
  | keys h =>
    obtain ⟨groups, hgroups, hkeys⟩ := h.reads
    exact map_eq_ok.mpr ⟨groups, hgroups, hkeys⟩

/-! ## Requests -/

namespace SearchRequest

theorem Spelled.reads {r : SearchRequest} (hms : (ms.map Prod.fst).Nodup) (h : r.Spelled ms)
    (hr : r.Canonical) : decode.Reads (.object ms) r := by
  obtain ⟨x, y, hx, hy, hpick⟩ :=
    h.aggs.reads hr.labels fun e he v hv => hv.reads (hr.aggs e he)
  have hsort : RawSearchRequest.record.readField "sort" (Record.kept ms "sort")
      ⟨{ r with sort := [], aggs := [] }, none, none⟩ =
        .ok ⟨{ r with aggs := [] }, none, none⟩ := by
    have hsorted := h.sort
    -- Sort keys that are absent are none, as they are before anything is read.
    refine Record.readField_of_reads (e := decodeSort)
      (f := fun keys => (⟨{ r with sort := keys, aggs := [] }, none, none⟩ : RawSearchRequest))
      (fun v hv => ?_) (fun hv => ?_) fun _ => rfl
    · rw [hv] at hsorted
      exact hsorted.reads
    · rw [hv] at hsorted
      generalize r.sort = keys at hsorted
      cases hsorted
      rfl
  have hread : RawSearchRequest.record.decode.Reads (.object ms)
      ⟨{ r with aggs := [] }, x, y⟩ := by
    refine RawSearchRequest.record_independent.reads_object hms (List.forall_mem_nil _) ?_
    exact Record.readFields_cons (h.query.readField
        (fun q _ hq hv => hv.reads (hr.query q hq)) (fun _ h => by cases h) (fun _ => rfl) rfl) <|
      Record.readFields_cons (h.size.readCount (fun _ => rfl) rfl) <|
      Record.readFields_cons (h.start.readCount (fun _ => rfl) rfl) <|
      Record.readFields_cons hsort <|
      Record.readFields_cons (Record.readField_of_optional hx (fun _ => rfl) rfl) <|
      Record.readFields_cons (Record.readField_of_optional hy (fun _ => rfl) rfl) rfl
  refine map_eq_ok.mpr ⟨_, hread, ?_⟩
  rw [RawSearchRequest.settle, hpick]

/-- A request that was read, from a body or from a value, comes back from every way to write it. -/
theorem ofJson_of_renders {r : SearchRequest}
    (hr : (∃ body, ofBytes body = .ok r) ∨ ∃ v, ofJson v = .ok r) {v : Json} (hv : r.Renders v) :
    ofJson v.sorted = .ok r := by
  -- Of what was read only the order of names and the form of bounds matter.
  have hcanonical : r.Canonical := by
    obtain ⟨body, hbody⟩ | ⟨w, hw⟩ := hr
    · exact ofBytes_canonical hbody
    · exact decode_gives _ _ hw
  cases hv with
  | intro hms h => exact h.reads hms hcanonical

end SearchRequest

end

/-! ### A nested request -/

/-- One thing is written under its name. -/
theorem ByName.one {α : Type} {R : α → Json → Prop} {name : String} {a : α} {v : Json}
    (h : R a v) : ByName R [(name, a)] (.object [(name, v)]) := by
  refine .intro (List.pairwise_singleton _ _) fun other => ?_
  by_cases hother : other = name
  · subst hother
    rw [Named.get?_cons_self, Named.get?_cons_self]
    exact .some h
  · simp only [Named.get?, if_neg hother]
    exact .none

/-- A request with queries in a query and an aggregation in an aggregation. -/
def nestedRequest : SearchRequest where
  query := some { bool := some {
    must := [{ term := some [("f", { value := "x" })] }],
    should := [{ range := some [("n", { gte := some (.ofInt 3), lt := some ⟨"7", true⟩ })] }] } }
  size := some 5
  sort := [⟨"a", .asc⟩, ⟨"b", .desc⟩, ⟨"a", .asc⟩]
  aggs := [("by",
    { terms := some { field := "k" }, aggs := [("m", { max := some { field := "n" } })] })]

/-- A value that writes it, with its members in order. -/
def orderlyValue : Json :=
  .object [
    ("aggs", .object [("by", .object [
      ("aggs", .object [("m", .object [("max", .object [("field", .string "n")])])]),
      ("terms", .object [("field", .string "k")])])]),
    ("query", .object [("bool", .object [
      ("must", .array [.object [("term", .object [("f", .string "x")])]]),
      ("should", .array [.object [("range", .object [("n", .object
        [("gte", .ofInt 3), ("lt", .string " 7")])])]])])]),
    ("size", .ofInt 5),
    ("sort", .array [.string "a", .object [("b", .string "desc")], .string "a"])]

/-- Another one, with its members out of order and members of no field, a query in place of a list
of one, two sort keys in one object and aggregations under both names. -/
def disorderlyValue : Json :=
  .object [
    ("sort", .array [.object [("b", .object [("mode", .string "min"), ("order", .string "Desc")]),
      ("a", .string "ASC")], .string "a"]),
    ("x", .array [.null]),
    ("aggs", .object [("other", .object [])]),
    ("query", .object [("bool", .object [
      ("should", .array [.object [("range", .object [("n", .object
        [("lt", .string "7"), ("gte", .ofInt 3)])])]]),
      ("must", .object [("term", .object [("f", .object
        [("z", .bool true), ("value", .string "x")])])])])]),
    ("aggregations", .object [("by", .object [
      ("aggs", .object [("m", .object [("max", .object [("y", .null), ("field", .string "n")])])]),
      ("terms", .object [("field", .string "k")]), ("aggregations", .object [])])]),
    ("size", .ofInt 5)]

/-- The request of the example is read from the one value and comes back from the other. -/
theorem SearchRequest.ofJson_of_renders_example : ofJson orderlyValue = .ok nestedRequest ∧
    nestedRequest.Renders disorderlyValue ∧
      ofJson disorderlyValue.sorted = .ok nestedRequest := by
  have hread : ofJson orderlyValue = .ok nestedRequest := by with_unfolding_all rfl
  have hmust : Query.RendersWithin 1 { term := some [("f", { value := "x" })] }
      (.object [("term", .object [("f", .object [("z", .bool true), ("value", .string "x")])])]) :=
    .intro (by decide) ⟨.present (.one (.spelled (.intro (by decide) ⟨rfl, .absent, .absent⟩))),
      .absent, .absent, .absent, .absent⟩
  have hshould : Query.RendersWithin 1
      { range := some [("n", { gte := some (.ofInt 3), lt := some ⟨"7", true⟩ })] }
      (.object [("range", .object [("n", .object [("lt", .string "7"), ("gte", .ofInt 3)])])]) :=
    .intro (by decide) ⟨.absent, .absent, .absent, .present (.one (.intro (by decide)
      ⟨.absent, .present (.int 3), .present (.text "7"), .absent, .absent, .absent, .absent,
        .absent, .absent, .absent⟩)), .absent⟩
  have hgroup : ByName SortDirection.Renders [("a", .asc), ("b", .desc)] (.object
      [("b", .object [("mode", .string "min"), ("order", .string "Desc")]),
        ("a", .string "ASC")]) := by
    refine .intro (by decide) fun name => ?_
    by_cases ha : name = "a"
    · subst ha
      exact .some (.keyword rfl)
    · by_cases hb : name = "b"
      · subst hb
        exact .some (.spelled (.intro (by decide)
          ⟨⟨"Desc", rfl, show _ = _ by decide⟩, some "min", .present rfl⟩))
      · simp only [Named.get?, ha, hb, if_false]
        exact .none
  have hmax : Aggregate.RendersWithin 1 { max := some { field := "n" } }
      (.object [("max", .object [("y", .null), ("field", .string "n")])]) :=
    .intro (by decide) ⟨.absent, .absent, .absent, .present (.intro (by decide) ⟨rfl, .absent⟩),
      .nothing .absent .absent⟩
  have hby : Aggregate.Renders
      { terms := some { field := "k" }, aggs := [("m", { max := some { field := "n" } })] }
      (.object [
        ("aggs", .object [("m", .object
          [("max", .object [("y", .null), ("field", .string "n")])])]),
        ("terms", .object [("field", .string "k")]), ("aggregations", .object [])]) :=
    ⟨2, .intro (by decide) ⟨.present (.intro (by decide) ⟨rfl, .absent⟩), .absent, .absent,
      .absent, .aggs .empty (.one hmax)⟩⟩
  have hother : ∃ x, decodeValue (decodeAggregates Aggregate.decode)
      (Json.object [("other", .object [])]).sorted = .ok x :=
    ⟨some [("other", {})], by with_unfolding_all rfl⟩
  have hrenders : nestedRequest.Renders disorderlyValue := by
    refine .intro (by decide) ⟨.present ⟨2, .intro (by decide) ⟨.absent, .absent, .present
      (.intro (by decide) ⟨.one hmust, .many (.cons hshould .nil), .absent⟩), .absent, .absent⟩⟩,
      .present rfl, .absent, ?_, ?_⟩
    · exact .keys (@SortKeysRender.object [⟨"a", .asc⟩, ⟨"b", .desc⟩] _ _ _ (by decide) hgroup
        (.field .nil))
    · refine .aggregations (List.cons_ne_nil _ _) (.one hby) ?_
      rintro w ⟨⟩
      exact hother
  exact ⟨hread, hrenders, ofJson_of_renders (.inr ⟨_, hread⟩) hrenders⟩

end Quarry.Request
