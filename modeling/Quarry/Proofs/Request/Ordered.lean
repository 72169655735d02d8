/-
# Requests in the order of names

* `Query.Ordered`, `Aggregate.Ordered`, `SearchRequest.Ordered` — whatever is kept by name stands in
  the order of names.
* `Query.Canonical`, `SearchRequest.Canonical` — so it does also where it has no effect, and bounds
  given as strings are numerals without blanks around them.
* `Record.decode_invariant` — what holds of the start of a record and is kept by every field holds
  of what is read.
* `SearchRequest.ofBytes_ordered`, `SearchRequest.ofJson_ordered` — every request that is read
  stands in that order. `SearchRequest.decode_gives` — it is canonical.
-/
import Mathlib.Data.List.DropRight
import Quarry.Proofs.Json.Named
import Quarry.Proofs.Outcome
import Quarry.Request.Basic

namespace Quarry

open Quarry.Json Quarry.Outcome Quarry.Request

/-! ## Orders -/

namespace Request

/-- The fields of a query and of those under `must` ascend. -/
inductive Query.Ordered : Query → Prop
  | intro (q : Query) :
    (∀ t ∈ q.term, t.Ascending) → (∀ m ∈ q.matching, m.Ascending) →
    (∀ r ∈ q.range, r.Ascending) → (∀ b ∈ q.bool, ∀ p ∈ b.must, Query.Ordered p) → Ordered q

/-- The labels under an aggregation ascend, and so on below. -/
inductive Aggregate.Ordered : Aggregate → Prop
  | intro (a : Aggregate) :
    Named.Ascending a.aggs → (∀ e ∈ a.aggs, Aggregate.Ordered e.2) → Ordered a

/-- Everything in a request that is kept by name stands in the order of names. -/
structure SearchRequest.Ordered (r : SearchRequest) : Prop where
  query : ∀ q ∈ r.query, q.Ordered
  labels : r.aggs.Ascending
  aggs : ∀ e ∈ r.aggs, e.2.Ordered

/-- The labels under each aggregation of a request in order ascend. -/
theorem SearchRequest.Ordered.ascending_under {r : SearchRequest} (h : r.Ordered) :
    ∀ e ∈ r.aggs, Named.Ascending e.2.aggs := by
  intro e he
  cases h.aggs e he with
  | intro _ hasc _ => exact hasc

/-- A bound that was given as a string is what a string of its numeral gives. -/
def Bound.Canonical (b : Bound) : Prop := b.quoted = true → Bound.ofText? b.numeral = some b

/-- The bounds of a range are canonical, whether they take effect or not. -/
def RangeParams.Canonical (p : RangeParams) : Prop :=
  ∀ x ∈ [p.gt, p.gte, p.lt, p.lte, p.lowerFrom, p.upperTo], ∀ b ∈ x, b.Canonical

/-- The fields of a query and of all those under it ascend, and its bounds are canonical. -/
inductive Query.Canonical : Query → Prop
  | intro (q : Query) :
    (∀ t ∈ q.term, t.Ascending) → (∀ m ∈ q.matching, m.Ascending) →
    (∀ r ∈ q.range, r.Ascending ∧ ∀ e ∈ r, e.2.Canonical) →
    (∀ b ∈ q.bool, ∀ p ∈ b.must ++ b.should ++ b.filter, Query.Canonical p) → Canonical q

/-- Whatever is kept by name in a request ascends, and its bounds are canonical. -/
structure SearchRequest.Canonical (r : SearchRequest) : Prop where
  query : ∀ q ∈ r.query, q.Canonical
  labels : r.aggs.Ascending
  aggs : ∀ e ∈ r.aggs, e.2.Ordered

theorem Query.Canonical.ordered {q : Query} (h : q.Canonical) : q.Ordered := by
  induction h with
  | intro q hterm hmatching hrange _ ih =>
    refine .intro q hterm hmatching (fun r hr => (hrange r hr).1) fun b hb p hp => ?_
    exact ih b hb p (List.mem_append_left _ (List.mem_append_left _ hp))

theorem SearchRequest.Canonical.ordered {r : SearchRequest} (h : r.Canonical) : r.Ordered :=
  ⟨fun q hq => (h.query q hq).ordered, h.labels, h.aggs⟩

end Request

/-! ## Reading -/

namespace Json

/-- A decoder gives only what has a property. -/
def Decoder.Gives {α : Type} (d : Decoder α) (P : α → Prop) : Prop := ∀ o a, d o = .ok a → P a

namespace Decoder

variable {α : Type} {d : Decoder α} {P : α → Prop}

/-- What is read instead of `null` has the property of what is read. -/
theorem Gives.optional (h : d.Gives P) : (Decoder.optional d).Gives fun x => ∀ a ∈ x, P a := by
  intro o x hx
  have hsome : (d o).map some = .ok x → ∀ a ∈ x, P a := by
    intro hx a ha
    obtain ⟨b, hb, rfl⟩ := map_eq_ok.mp hx
    cases ha
    exact h o a hb
  cases o with
  | null =>
    cases hx
    intro a ha
    cases ha
  | _ => exact hsome hx

/-- All elements that are read have the property of one. -/
theorem Gives.items (h : d.Gives P) {os : List Outline} {ending : Ending} {l : List α}
    (hl : Decoder.items d os ending = .ok l) : ∀ a ∈ l, P a := by
  induction os generalizing l with
  | nil =>
    obtain ⟨-, -, rfl⟩ := map_eq_ok.mp hl
    intro a ha
    cases ha
  | cons o rest ih =>
    obtain ⟨a, ha, hrest⟩ := bind_eq_ok.mp hl
    obtain ⟨as, has, heq⟩ := bind_eq_ok.mp hrest
    cases heq
    intro b hb
    rcases List.mem_cons.mp hb with rfl | hb
    · exact h o b ha
    · exact ih has b hb

/-- All elements of an array have the property of one. -/
theorem Gives.list (h : d.Gives P) : (Decoder.list d).Gives fun l => ∀ a ∈ l, P a := by
  intro o l hl
  cases o with
  | array os ending => exact h.items hl
  | _ => cases hl

/-- Members keep what is already there in order, and all have the property of one. -/
theorem Gives.members (h : d.Gives P) {done l : Named α}
    {ms : List (Except Malformed String × Outline)} {ending : Ending} (hdone : done.Ascending)
    (hall : ∀ e ∈ done, P e.2) (hl : Decoder.members d done ms ending = .ok l) :
    l.Ascending ∧ ∀ e ∈ l, P e.2 := by
  induction ms generalizing done with
  | nil =>
    obtain ⟨-, -, rfl⟩ := map_eq_ok.mp hl
    exact ⟨hdone, hall⟩
  | cons m rest ih =>
    obtain ⟨written, o⟩ := m
    obtain ⟨name, -, hl⟩ := bind_eq_ok.mp hl
    obtain ⟨a, ha, hl⟩ := bind_eq_ok.mp hl
    refine ih (Named.ascending_insert hdone name a) ?_ hl
    intro e he
    rcases Named.mem_insert he with rfl | he
    · exact h o a ha
    · exact hall e he

/-- Things read by name stand in the order of names, and all have the property of one. -/
theorem Gives.namedOf (h : d.Gives P) :
    (Decoder.namedOf d).Gives fun l => l.Ascending ∧ ∀ e ∈ l, P e.2 := by
  intro o l hl
  cases o with
  | object ms ending =>
    exact h.members Named.ascending_nil (fun e he => by cases he) hl
  | _ => cases hl

/-- Whatever is read has the property that all have. -/
theorem gives_true (d : Decoder α) : d.Gives fun _ => True := fun _ _ _ => trivial

end Decoder

namespace Record

variable {ρ : Type} {r : Record ρ} {P : ρ → Prop}

/-- Members keep what every field keeps. -/
theorem ofMembers_invariant (hset : ∀ name o a b, P a → r.set name o a = .ok b → P b) {a b : ρ}
    {seen : List String} {ms : List (Except Malformed String × Outline)} {ending : Ending}
    (ha : P a) (h : r.ofMembers a seen ms ending = .ok b) : P b := by
  induction ms generalizing a seen with
  | nil =>
    obtain ⟨-, -, h⟩ := bind_eq_ok.mp h
    obtain ⟨-, -, h⟩ := bind_eq_ok.mp h
    cases h
    exact ha
  | cons m rest ih =>
    obtain ⟨written, o⟩ := m
    obtain ⟨name, -, h⟩ := bind_eq_ok.mp h
    split_ifs at h with hknown hseen
    · cases h
    · obtain ⟨c, hc, h⟩ := bind_eq_ok.mp h
      exact ih (hset name o a c ha hc) h
    · obtain ⟨-, -, h⟩ := bind_eq_ok.mp h
      exact ih ha h

/-- Elements keep what every field keeps. -/
theorem ofItems_invariant (hset : ∀ name o a b, P a → r.set name o a = .ok b → P b)
    {total i : Nat} {a b : ρ} {names : List String} {os : List Outline} {ending : Ending}
    (ha : P a) (h : r.ofItems total a i names os ending = .ok b) : P b := by
  induction names generalizing a i os with
  | nil =>
    obtain ⟨-, -, h⟩ := bind_eq_ok.mp h
    cases h
    exact ha
  | cons name names ih =>
    cases os with
    | nil =>
      obtain ⟨-, -, h⟩ := bind_eq_ok.mp h
      split_ifs at h with hrequired
      · cases h
      · exact ih ha h
    | cons o rest =>
      obtain ⟨c, hc, h⟩ := bind_eq_ok.mp h
      exact ih (hset name o a c ha hc) h

/-- What holds of the start of a record and is kept by every field holds of what is read. -/
theorem decode_invariant (hstart : P r.start)
    (hset : ∀ name o a b, P a → r.set name o a = .ok b → P b) : Decoder.Gives r.decode P := by
  intro o a h
  cases o with
  | object ms ending => exact ofMembers_invariant hset hstart h
  | array os ending => exact ofItems_invariant hset hstart h
  | _ => cases h

end Record

end Json

namespace Request

/-! ## Queries -/

/-- One or many things that are read have the property of what is read. -/
theorem oneOrMany_gives {α : Type} {d : Decoder α} {P : α → Prop} (h : d.Gives P) :
    (oneOrMany d).Gives fun l => ∀ a ∈ l, P a := by
  intro o l hl
  cases o with
  | null =>
    cases hl
    intro a ha
    cases ha
  | object ms ending =>
    obtain ⟨a, ha, rfl⟩ := map_eq_ok.mp hl
    intro b hb
    obtain rfl := List.mem_singleton.mp hb
    exact h _ b ha
  | array os ending => exact h.items hl
  | _ => cases hl

/-- A text without the blanks around it has none around it. -/
theorem trim_trim (s : String) : Text.trim (Text.trim s) = Text.trim s := by
  have hchars : ∀ cs, Text.trimChars (Text.trimChars cs) = Text.trimChars cs := by
    intro cs
    have hright : ∀ ds, Text.trimRight (Text.trimRight ds) = Text.trimRight ds := fun ds =>
      List.rdropWhile_idempotent Text.isBlank ds
    -- What is left after the blanks at the end begins like what was there before.
    have hleft : (Text.trimChars cs).dropWhile Text.isBlank = Text.trimChars cs := by
      have hpre : Text.trimChars cs <+: cs.dropWhile Text.isBlank :=
        List.rdropWhile_prefix Text.isBlank _
      rw [List.dropWhile_eq_self_iff]
      intro hpos
      have hhead := List.dropWhile_eq_self_iff.mp (List.dropWhile_idempotent Text.isBlank cs)
        (lt_of_lt_of_le hpos hpre.length_le)
      rwa [← hpre.getElem hpos] at hhead
    rw [Text.trimChars, hleft]
    exact hright _
  rw [Text.trim, Text.trim, String.toList_ofList, hchars]

/-- Bounds are read as canonical ones. -/
theorem Bound.decode_gives : Bound.decode.Gives Bound.Canonical := by
  have hparse : ∀ s b, Bound.ofText? s = some b → b.Canonical := by
    intro s b hb _
    obtain ⟨n, hn, rfl⟩ := Option.map_eq_some_iff.mp hb
    show (numberOf? (Text.trim (Text.trim s))).map _ = _
    rw [trim_trim, hn]
    rfl
  have hplain : ∀ s b, Bound.parse? s false = some b → b.Canonical := by
    intro s b hb hquoted
    obtain ⟨n, -, rfl⟩ := Option.map_eq_some_iff.mp hb
    cases hquoted
  intro o b hb
  cases o with
  | number n =>
    cases n with
    | int n =>
      cases hb
      intro hquoted
      cases hquoted
    | float x =>
      simp only [Bound.decode] at hb
      split at hb
      · next b' hb' =>
        cases hb
        exact hplain _ _ hb'
      · cases hb
  | string s =>
    simp only [Bound.decode] at hb
    split at hb
    · next b' hb' =>
      cases hb
      exact hparse _ _ hb'
    · cases hb
  | _ => cases hb

/-- The bounds of a range that is read are canonical. -/
theorem RangeParams.record_gives :
    Decoder.Gives RangeParams.record.decode RangeParams.Canonical := by
  have hbound := Bound.decode_gives.optional
  refine Record.decode_invariant ?_ ?_
  · intro x hx b hb
    have hnone : x = none := by
      simpa [RangeParams.record] using hx
    rw [hnone] at hb
    cases hb
  · intro name o a b ha hb
    simp only [RangeParams.Canonical, List.forall_mem_cons, List.not_mem_nil, IsEmpty.forall_iff,
      implies_true, and_true] at ha ⊢
    obtain ⟨hgt, hgte, hlt, hlte, hfrom, hto⟩ := ha
    simp only [RangeParams.record] at hb
    split at hb
    · obtain ⟨v, hv, rfl⟩ := map_eq_ok.mp hb
      exact ⟨hbound o v hv, hgte, hlt, hlte, hfrom, hto⟩
    · obtain ⟨v, hv, rfl⟩ := map_eq_ok.mp hb
      exact ⟨hgt, hbound o v hv, hlt, hlte, hfrom, hto⟩
    · obtain ⟨v, hv, rfl⟩ := map_eq_ok.mp hb
      exact ⟨hgt, hgte, hbound o v hv, hlte, hfrom, hto⟩
    · obtain ⟨v, hv, rfl⟩ := map_eq_ok.mp hb
      exact ⟨hgt, hgte, hlt, hbound o v hv, hfrom, hto⟩
    · obtain ⟨v, hv, rfl⟩ := map_eq_ok.mp hb
      exact ⟨hgt, hgte, hlt, hlte, hbound o v hv, hto⟩
    · obtain ⟨v, hv, rfl⟩ := map_eq_ok.mp hb
      exact ⟨hgt, hgte, hlt, hlte, hfrom, hbound o v hv⟩
    all_goals
      obtain ⟨v, -, rfl⟩ := map_eq_ok.mp hb
      exact ⟨hgt, hgte, hlt, hlte, hfrom, hto⟩

/-- Combined queries are made of what queries are read to be. -/
theorem BoolQuery.record_gives {query : Decoder Query} {P : Query → Prop} (h : query.Gives P) :
    Decoder.Gives (BoolQuery.record query).decode
      fun b => ∀ p ∈ b.must ++ b.should ++ b.filter, P p := by
  simp only [List.forall_mem_append]
  refine Record.decode_invariant
    ⟨⟨List.forall_mem_nil _, List.forall_mem_nil _⟩, List.forall_mem_nil _⟩ ?_
  rintro name o a b ⟨⟨hmust, hshould⟩, hfilter⟩ hb
  simp only [BoolQuery.record] at hb
  split at hb
  · obtain ⟨v, hv, rfl⟩ := map_eq_ok.mp hb
    exact ⟨⟨oneOrMany_gives h o v hv, hshould⟩, hfilter⟩
  · obtain ⟨v, hv, rfl⟩ := map_eq_ok.mp hb
    exact ⟨⟨hmust, oneOrMany_gives h o v hv⟩, hfilter⟩
  · obtain ⟨v, hv, rfl⟩ := map_eq_ok.mp hb
    exact ⟨⟨hmust, hshould⟩, h.list o v hv⟩

/-- A query as a record is canonical if the queries inside it are. -/
theorem Query.record_gives {query : Decoder Query} (h : query.Gives Query.Canonical) :
    Decoder.Gives (Query.record query).decode Query.Canonical := by
  refine Record.decode_invariant ?_ ?_
  · exact .intro _ (fun t ht => by cases ht) (fun m hm => by cases hm)
      (fun r hr => by cases hr) (fun b hb => by cases hb)
  · intro name o a b ha hb
    obtain ⟨_, hterm, hmatching, hrange, hbool⟩ := ha
    simp only [Query.record] at hb
    split at hb
    · obtain ⟨v, hv, rfl⟩ := map_eq_ok.mp hb
      have hnew := (Decoder.gives_true TermValue.decode).namedOf.optional o v hv
      exact .intro _ (fun t ht => (hnew t ht).1) hmatching hrange hbool
    · obtain ⟨v, hv, rfl⟩ := map_eq_ok.mp hb
      have hnew := (Decoder.gives_true MatchValue.decode).namedOf.optional o v hv
      exact .intro _ hterm (fun m hm => (hnew m hm).1) hrange hbool
    · obtain ⟨v, hv, rfl⟩ := map_eq_ok.mp hb
      have hnew := (BoolQuery.record_gives h).optional o v hv
      exact .intro _ hterm hmatching hrange hnew
    · obtain ⟨v, hv, rfl⟩ := map_eq_ok.mp hb
      have hnew := RangeParams.record_gives.namedOf.optional o v hv
      exact .intro _ hterm hmatching hnew hbool
    · obtain ⟨v, -, rfl⟩ := map_eq_ok.mp hb
      exact .intro _ hterm hmatching hrange hbool

/-- Every query that is read is canonical. -/
theorem Query.decode_gives : Query.decode.Gives Query.Canonical := by
  have hwithin : ∀ n, (Query.decodeWithin n).Gives Query.Canonical := by
    intro n
    induction n with
    | zero =>
      intro o q h
      cases h
    | succ n ih => exact Query.record_gives ih
  intro o q h
  exact hwithin o.height o q h

/-! ## Aggregations -/

/-- Both names of aggregations give them in order. -/
theorem pickAggregates_invariant {P : Named Aggregate → Prop} (hnil : P [])
    {aggs aggregations : Option (Named Aggregate)} (h : ∀ l ∈ aggs, P l)
    (h' : ∀ l ∈ aggregations, P l) : P (pickAggregates aggs aggregations) := by
  unfold pickAggregates
  split
  · exact h' _ rfl
  · cases aggs with
    | none => exact hnil
    | some l => exact h l rfl

/-- Labels ascend, and every aggregation under them is in order. -/
def Aggregates (l : Named Aggregate) : Prop := l.Ascending ∧ ∀ e ∈ l, e.2.Ordered

theorem aggregates_nil : Aggregates [] := ⟨Named.ascending_nil, fun e he => by cases he⟩

/-- The aggregation of a record is in order if those inside it are. -/
theorem RawAggregate.record_gives {aggregate : Decoder Aggregate}
    (h : aggregate.Gives Aggregate.Ordered) :
    Decoder.Gives (RawAggregate.record aggregate).decode
      fun r => (∀ l ∈ r.aggs, Aggregates l) ∧ ∀ l ∈ r.aggregations, Aggregates l := by
  refine Record.decode_invariant ⟨fun l hl => (by cases hl), fun l hl => (by cases hl)⟩ ?_
  intro name o a b ha hb
  simp only [RawAggregate.record] at hb
  split at hb
  · obtain ⟨-, -, rfl⟩ := map_eq_ok.mp hb
    exact ha
  · obtain ⟨-, -, rfl⟩ := map_eq_ok.mp hb
    exact ha
  · obtain ⟨-, -, rfl⟩ := map_eq_ok.mp hb
    exact ha
  · obtain ⟨-, -, rfl⟩ := map_eq_ok.mp hb
    exact ha
  · obtain ⟨v, hv, rfl⟩ := map_eq_ok.mp hb
    exact ⟨h.namedOf.optional o v hv, ha.2⟩
  · obtain ⟨v, hv, rfl⟩ := map_eq_ok.mp hb
    exact ⟨ha.1, h.namedOf.optional o v hv⟩

/-- Every aggregation that is read is in order. -/
theorem Aggregate.decode_gives : Aggregate.decode.Gives Aggregate.Ordered := by
  have hwithin : ∀ n, (Aggregate.decodeWithin n).Gives Aggregate.Ordered := by
    intro n
    induction n with
    | zero =>
      intro o a h
      cases h
    | succ n ih =>
      intro o a h
      obtain ⟨raw, hraw, rfl⟩ := map_eq_ok.mp h
      obtain ⟨haggs, haggregations⟩ := RawAggregate.record_gives ih o raw hraw
      obtain ⟨hlabels, hall⟩ := pickAggregates_invariant aggregates_nil haggs haggregations
      exact .intro _ hlabels hall
  intro o a h
  exact hwithin o.height o a h

/-! ## Requests -/

/-- Every request that is read is canonical. -/
theorem SearchRequest.decode_gives : SearchRequest.decode.Gives SearchRequest.Canonical := by
  have hrecord : Decoder.Gives RawSearchRequest.record.decode fun r =>
      (∀ q ∈ r.request.query, q.Canonical) ∧ (∀ l ∈ r.aggs, Aggregates l) ∧
        ∀ l ∈ r.aggregations, Aggregates l := by
    -- Only the query and the two members for aggregations are touched by what is claimed.
    refine Record.decode_invariant
      ⟨fun q hq => (by cases hq), fun l hl => (by cases hl), fun l hl => (by cases hl)⟩ ?_
    intro name o a b ha hb
    simp only [RawSearchRequest.record] at hb
    split at hb
    · obtain ⟨v, hv, rfl⟩ := map_eq_ok.mp hb
      exact ⟨Query.decode_gives.optional o v hv, ha.2⟩
    · obtain ⟨-, -, rfl⟩ := map_eq_ok.mp hb
      exact ha
    · obtain ⟨-, -, rfl⟩ := map_eq_ok.mp hb
      exact ha
    · obtain ⟨-, -, rfl⟩ := map_eq_ok.mp hb
      exact ha
    · obtain ⟨v, hv, rfl⟩ := map_eq_ok.mp hb
      exact ⟨ha.1, Aggregate.decode_gives.namedOf.optional o v hv, ha.2.2⟩
    · obtain ⟨v, hv, rfl⟩ := map_eq_ok.mp hb
      exact ⟨ha.1, ha.2.1, Aggregate.decode_gives.namedOf.optional o v hv⟩
  intro o r h
  obtain ⟨raw, hraw, rfl⟩ := map_eq_ok.mp h
  obtain ⟨hquery, haggs, haggregations⟩ := hrecord o raw hraw
  obtain ⟨hlabels, hall⟩ := pickAggregates_invariant aggregates_nil haggs haggregations
  exact ⟨hquery, hlabels, hall⟩

/-- Every body that is read is a canonical request. -/
theorem SearchRequest.ofBytes_canonical {body : List UInt8} {r : SearchRequest}
    (h : SearchRequest.ofBytes body = .ok r) : r.Canonical := by
  unfold SearchRequest.ofBytes at h
  split_ifs at h with hblank
  · cases h
    exact ⟨fun q hq => (by cases hq), Named.ascending_nil, fun e he => (by cases he)⟩
  · obtain ⟨a, ha, h⟩ := bind_eq_ok.mp h
    split_ifs at h with htrailing
    · cases h
    · cases h
      exact SearchRequest.decode_gives _ _ ha

/-- Every body that is read is a request in order. -/
theorem SearchRequest.ofBytes_ordered {body : List UInt8} {r : SearchRequest}
    (h : SearchRequest.ofBytes body = .ok r) : r.Ordered := (ofBytes_canonical h).ordered

/-- Every value that is read is a request in order. -/
theorem SearchRequest.ofJson_ordered {v : Json} {r : SearchRequest}
    (h : SearchRequest.ofJson v = .ok r) : r.Ordered := (SearchRequest.decode_gives _ _ h).ordered

end Request

end Quarry
