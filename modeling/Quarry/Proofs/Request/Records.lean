/-
# The records of a request

* `TermValue.record_independent` and the like — the fields of every record of a request can be read
  in any order.
* `Query.decode_eq`, `Aggregate.decode_eq` — queries and aggregations are read from what stands in
  them, whatever the bound on their depth.
-/
import Quarry.Proofs.Json.Heights
import Quarry.Request.Basic

namespace Quarry.Request

open Quarry.Json

/-! ## Fields in any order -/

theorem TermValue.record_independent : TermValue.record.Independent where
  nodup := by decide
  required := by decide
  commute := by
    show List.Pairwise _ ["value", "boost", "case_insensitive"]
    simp only [List.pairwise_cons, List.forall_mem_cons, List.not_mem_nil, IsEmpty.forall_iff,
      implies_true, List.Pairwise.nil, and_true]
    and_intros <;>
      exact Record.commute_of_map (fun _ _ => rfl) (fun _ _ => rfl) fun _ _ _ => rfl

theorem MatchValue.record_independent : MatchValue.record.Independent where
  nodup := by decide
  required := by decide
  commute := by
    show List.Pairwise _ ["query", "fuzziness", "operator"]
    simp only [List.pairwise_cons, List.forall_mem_cons, List.not_mem_nil, IsEmpty.forall_iff,
      implies_true, List.Pairwise.nil, and_true]
    and_intros <;>
      exact Record.commute_of_map (fun _ _ => rfl) (fun _ _ => rfl) fun _ _ _ => rfl

theorem RangeParams.record_independent : RangeParams.record.Independent where
  nodup := by decide
  required := by decide
  commute := by
    show List.Pairwise _ ["gt", "gte", "lt", "lte", "from", "to", "format", "include_lower",
      "include_upper", "boost"]
    simp only [List.pairwise_cons, List.forall_mem_cons, List.not_mem_nil, IsEmpty.forall_iff,
      implies_true, List.Pairwise.nil, and_true]
    and_intros <;>
      exact Record.commute_of_map (fun _ _ => rfl) (fun _ _ => rfl) fun _ _ _ => rfl

theorem QueryString.record_independent : QueryString.record.Independent where
  nodup := by decide
  required := by decide
  commute := List.pairwise_pair.mpr <|
    Record.commute_of_map (fun _ _ => rfl) (fun _ _ => rfl) fun _ _ _ => rfl

theorem BoolQuery.record_independent (query : Decoder Query) :
    (BoolQuery.record query).Independent where
  nodup := show ["must", "should", "filter"].Nodup by decide
  required := List.nil_subset _
  commute := by
    show List.Pairwise _ ["must", "should", "filter"]
    simp only [List.pairwise_cons, List.forall_mem_cons, List.not_mem_nil, IsEmpty.forall_iff,
      implies_true, List.Pairwise.nil, and_true]
    and_intros <;>
      exact Record.commute_of_map (fun _ _ => rfl) (fun _ _ => rfl) fun _ _ _ => rfl

theorem Query.record_independent (query : Decoder Query) : (Query.record query).Independent where
  nodup := show ["term", "match", "bool", "range", "query_string"].Nodup by decide
  required := List.nil_subset _
  commute := by
    show List.Pairwise _ ["term", "match", "bool", "range", "query_string"]
    simp only [List.pairwise_cons, List.forall_mem_cons, List.not_mem_nil, IsEmpty.forall_iff,
      implies_true, List.Pairwise.nil, and_true]
    and_intros <;>
      exact Record.commute_of_map (fun _ _ => rfl) (fun _ _ => rfl) fun _ _ _ => rfl

theorem TermsAgg.record_independent : TermsAgg.record.Independent where
  nodup := by decide
  required := by decide
  commute := List.pairwise_pair.mpr <|
    Record.commute_of_map (fun _ _ => rfl) (fun _ _ => rfl) fun _ _ _ => rfl

theorem DateHistogramAgg.record_independent : DateHistogramAgg.record.Independent where
  nodup := by decide
  required := by decide
  commute := by
    show List.Pairwise _ ["field", "buckets", "fixed_interval", "calendar_interval"]
    simp only [List.pairwise_cons, List.forall_mem_cons, List.not_mem_nil, IsEmpty.forall_iff,
      implies_true, List.Pairwise.nil, and_true]
    and_intros <;>
      exact Record.commute_of_map (fun _ _ => rfl) (fun _ _ => rfl) fun _ _ _ => rfl

theorem FieldAgg.record_independent : FieldAgg.record.Independent where
  nodup := by decide
  required := by decide
  commute := List.pairwise_pair.mpr <|
    Record.commute_of_map (fun _ _ => rfl) (fun _ _ => rfl) fun _ _ _ => rfl

theorem RawAggregate.record_independent (aggregate : Decoder Aggregate) :
    (RawAggregate.record aggregate).Independent where
  nodup := show ["terms", "date_histogram", "avg", "max", "aggs", "aggregations"].Nodup by decide
  required := List.nil_subset _
  commute := by
    show List.Pairwise _ ["terms", "date_histogram", "avg", "max", "aggs", "aggregations"]
    simp only [List.pairwise_cons, List.forall_mem_cons, List.not_mem_nil, IsEmpty.forall_iff,
      implies_true, List.Pairwise.nil, and_true]
    and_intros <;>
      exact Record.commute_of_map (fun _ _ => rfl) (fun _ _ => rfl) fun _ _ _ => rfl

theorem RawSearchRequest.record_independent : RawSearchRequest.record.Independent where
  nodup := by decide
  required := by decide
  commute := by
    show List.Pairwise _ ["query", "size", "from", "sort", "aggs", "aggregations"]
    simp only [List.pairwise_cons, List.forall_mem_cons, List.not_mem_nil, IsEmpty.forall_iff,
      implies_true, List.Pairwise.nil, and_true]
    and_intros <;>
      exact Record.commute_of_map (fun _ _ => rfl) (fun _ _ => rfl) fun _ _ _ => rfl

theorem sortOptions_independent : sortOptions.Independent where
  nodup := by decide
  required := by decide
  commute := by
    -- The order is taken as it is read.
    have horder : ∀ o a, sortOptions.set "order" o a =
        (Decoder.optional Decoder.string o).map fun v => v := fun o _ => by
      show Decoder.optional Decoder.string o = _
      cases Decoder.optional Decoder.string o <;> rfl
    exact List.pairwise_pair.mpr (Record.commute_of_map horder (fun _ _ => rfl) fun _ _ _ => rfl)

/-! ## The bound on the depth -/

variable {k : Nat}

theorem oneOrMany_same {α : Type} {d d' : Decoder α} (h : Decoder.SameUpTo k d d') :
    Decoder.SameUpTo k (oneOrMany d) (oneOrMany d') := by
  intro o ho
  cases o with
  | array os ending => exact h.list _ ho
  | object ms ending => simp only [oneOrMany, h _ ho]
  | _ => rfl

/-- Combined queries are read alike where queries are. -/
theorem BoolQuery.record_same {query query' : Decoder Query}
    (h : Decoder.SameUpTo k query query') :
    Decoder.SameUpTo (k + 1) (BoolQuery.record query).decode (BoolQuery.record query').decode := by
  refine Record.decode_same fun name o ho => ?_
  funext b
  simp only [BoolQuery.record, oneOrMany_same h o ho, h.list o ho]

/-- Queries are read alike where the queries in them are. -/
theorem Query.record_same {query query' : Decoder Query} (h : Decoder.SameUpTo k query query') :
    Decoder.SameUpTo (k + 1) (Query.record query).decode (Query.record query').decode := by
  refine Record.decode_same fun name o ho => ?_
  funext q
  have hbool := ((BoolQuery.record_same h).mono (Nat.le_succ k)).optional o ho
  simp only [Query.record, hbool]

/-- Bounds at least as great as the height of a value play no part in how it is read. -/
theorem Query.decodeWithin_same {n m : Nat} (hn : k ≤ n) (hm : k ≤ m) :
    Decoder.SameUpTo k (Query.decodeWithin n) (Query.decodeWithin m) := by
  induction k generalizing n m with
  | zero =>
    intro o ho
    exact absurd o.height_pos (Nat.not_lt.mpr ho)
  | succ k ih =>
    obtain ⟨n, rfl⟩ := Nat.exists_eq_add_of_le' hn
    obtain ⟨m, rfl⟩ := Nat.exists_eq_add_of_le' hm
    exact Query.record_same (ih (Nat.le_add_left k n) (Nat.le_add_left k m))

theorem Query.decodeWithin_eq {n : Nat} {o : Outline} (h : o.height ≤ n) :
    Query.decodeWithin n o = Query.decode o :=
  Query.decodeWithin_same h (le_refl o.height) o (le_refl o.height)

/-- A query is read as a record of what is read of the queries in it. -/
theorem Query.decode_eq (o : Outline) : Query.decode o = (Query.record Query.decode).decode o := by
  have hsame : Decoder.SameUpTo o.height (Query.decodeWithin o.height) Query.decode :=
    fun p hp => Query.decodeWithin_eq hp
  rw [← Query.decodeWithin_eq (Nat.le_succ o.height)]
  exact (Query.record_same hsame) o (Nat.le_succ o.height)

/-- Aggregations are read alike where the aggregations in them are. -/
theorem RawAggregate.record_same {aggregate aggregate' : Decoder Aggregate}
    (h : Decoder.SameUpTo k aggregate aggregate') :
    Decoder.SameUpTo (k + 1) (RawAggregate.record aggregate).decode
      (RawAggregate.record aggregate').decode := by
  refine Record.decode_same fun name o ho => ?_
  funext r
  simp only [RawAggregate.record, h.namedOf.optional o ho]

/-- Bounds at least as great as the height of a value play no part in how it is read. -/
theorem Aggregate.decodeWithin_same {n m : Nat} (hn : k ≤ n) (hm : k ≤ m) :
    Decoder.SameUpTo k (Aggregate.decodeWithin n) (Aggregate.decodeWithin m) := by
  induction k generalizing n m with
  | zero =>
    intro o ho
    exact absurd o.height_pos (Nat.not_lt.mpr ho)
  | succ k ih =>
    obtain ⟨n, rfl⟩ := Nat.exists_eq_add_of_le' hn
    obtain ⟨m, rfl⟩ := Nat.exists_eq_add_of_le' hm
    intro o ho
    have hsame := RawAggregate.record_same (ih (Nat.le_add_left k n) (Nat.le_add_left k m)) o ho
    exact congrArg (Except.map RawAggregate.settle) hsame

theorem Aggregate.decodeWithin_eq {n : Nat} {o : Outline} (h : o.height ≤ n) :
    Aggregate.decodeWithin n o = Aggregate.decode o :=
  Aggregate.decodeWithin_same h (le_refl o.height) o (le_refl o.height)

/-- An aggregation is read as a record of what is read of the aggregations in it. -/
theorem Aggregate.decode_eq (o : Outline) :
    Aggregate.decode o =
      ((RawAggregate.record Aggregate.decode).decode o).map RawAggregate.settle := by
  have hsame : Decoder.SameUpTo o.height (Aggregate.decodeWithin o.height) Aggregate.decode :=
    fun p hp => Aggregate.decodeWithin_eq hp
  rw [← Aggregate.decodeWithin_eq (Nat.le_succ o.height)]
  exact congrArg (Except.map RawAggregate.settle)
    (RawAggregate.record_same hsame o (Nat.le_succ o.height))

end Quarry.Request
