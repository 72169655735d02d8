/-
# Requests from texts and from values

* `Query.agrees`, `Aggregate.agrees` — queries and aggregations are read alike from a text and from
  the value that it writes.
* `SearchRequest.SortsByOneField` — no item of the sort keys of a value names more than one field.
* `SearchRequest.decode_agrees` — then whole requests are read alike.
* `SearchRequest.ofBytes_iff_ofJson` — a body gives a request exactly when the value it writes gives
  that request.
-/
import Quarry.Proofs.Json.Agreement
import Quarry.Proofs.Request.Records

namespace Quarry

open Quarry.Json Quarry.Outcome

/-! ## Scalars and their long forms -/

namespace Request

theorem agrees_scalarText : scalarText.Agrees :=
  Decoder.agrees_of_leaf (fun _ _ _ h => by cases h) fun _ _ _ h => by cases h

theorem agrees_bound : Bound.decode.Agrees :=
  Decoder.agrees_of_leaf (fun _ _ _ h => by cases h) fun _ _ _ h => by cases h

/-- A scalar or a record is read alike if the fields of the record are. -/
theorem shorthand_agrees {α : Type} {expected : String} {ofScalar : String → α} {r : Record α}
    (h : r.Independent) (hset : r.FieldsAgree fun _ _ => True) :
    (shorthand expected ofScalar r).Agrees := by
  intro o v hw a
  cases o with
  | array os ending =>
    obtain ⟨vs, rfl, -⟩ := hw.array
    constructor <;> intro h <;> cases h
  | object ms ending =>
    obtain ⟨vs, rfl, hnext, hall⟩ := hw.object
    exact h.ofMembers_agrees hset hall (fun _ _ _ => trivial) hnext r.start a
  | _ => rw [hw.leaf rfl]

theorem TermValue.agrees : TermValue.decode.Agrees := by
  refine shorthand_agrees TermValue.record_independent fun name o v h _ a b => ?_
  simp only [TermValue.record]
  split
  · exact agrees_scalarText.map h _ b
  · exact agrees_scalarText.optional.map h _ b
  · exact Decoder.agrees_boolean.optional.map h _ b

theorem MatchValue.agrees : MatchValue.decode.Agrees := by
  refine shorthand_agrees MatchValue.record_independent fun name o v h _ a b => ?_
  simp only [MatchValue.record]
  split
  · exact agrees_scalarText.map h _ b
  · exact agrees_scalarText.optional.map h _ b
  · exact Decoder.agrees_string.optional.map h _ b

/-! ## Queries -/

theorem RangeParams.agrees : Decoder.Agrees RangeParams.record.decode := by
  refine RangeParams.record_independent.agrees fun name o v h _ a b => ?_
  simp only [RangeParams.record]
  split
  · exact agrees_bound.optional.map h _ b
  · exact agrees_bound.optional.map h _ b
  · exact agrees_bound.optional.map h _ b
  · exact agrees_bound.optional.map h _ b
  · exact agrees_bound.optional.map h _ b
  · exact agrees_bound.optional.map h _ b
  · exact Decoder.agrees_string.optional.map h _ b
  · exact Decoder.agrees_boolean.optional.map h _ b
  · exact Decoder.agrees_boolean.optional.map h _ b
  · exact agrees_scalarText.optional.map h _ b

theorem QueryString.agrees : Decoder.Agrees QueryString.record.decode := by
  refine QueryString.record_independent.agrees fun name o v h _ a b => ?_
  simp only [QueryString.record]
  split
  · exact Decoder.agrees_string.map h _ b
  · exact Decoder.agrees_string.optional.map h _ b

/-- One or many things are read alike if each is. -/
theorem oneOrMany_agrees {α : Type} {d : Decoder α} (hd : d.Agrees) : (oneOrMany d).Agrees := by
  intro o v h l
  cases o with
  | array os ending =>
    obtain ⟨vs, rfl, hnext, hall⟩ := h.array
    exact hd.items hall hnext l
  | object ms ending =>
    have hone := hd.map h (fun a => [a]) l
    obtain ⟨vs, rfl, -⟩ := h.object
    exact hone
  | _ => rw [h.leaf rfl]

theorem BoolQuery.agrees {query : Decoder Query} (h : query.Agrees) :
    Decoder.Agrees (BoolQuery.record query).decode := by
  refine (BoolQuery.record_independent query).agrees fun name o v hw _ a b => ?_
  simp only [BoolQuery.record]
  split
  · exact (oneOrMany_agrees h).map hw _ b
  · exact (oneOrMany_agrees h).map hw _ b
  · exact h.list.map hw _ b

theorem Query.record_agrees {query : Decoder Query} (h : query.Agrees) :
    Decoder.Agrees (Query.record query).decode := by
  refine (Query.record_independent query).agrees fun name o v hw _ a b => ?_
  simp only [Query.record]
  split
  · exact TermValue.agrees.namedOf.optional.map hw _ b
  · exact MatchValue.agrees.namedOf.optional.map hw _ b
  · exact (BoolQuery.agrees h).optional.map hw _ b
  · exact RangeParams.agrees.namedOf.optional.map hw _ b
  · exact QueryString.agrees.optional.map hw _ b

/-- Decoders agree that do the same as agreeing ones with values up to any height. -/
theorem agrees_of_within {α : Type} {d : Decoder α} {within : Nat → Decoder α}
    (heq : ∀ n o, o.height ≤ n → within n o = d o) (h : ∀ n, (within n).Agrees) : d.Agrees := by
  intro o v hw a
  rw [← heq _ o (le_max_left o.height (Outline.ofJson v).height),
    ← heq _ (Outline.ofJson v) (le_max_right o.height (Outline.ofJson v).height)]
  exact h _ o v hw a

/-- Queries are read alike, however deeply they are nested. -/
theorem Query.agrees : Query.decode.Agrees := by
  refine agrees_of_within (fun n o ho => Query.decodeWithin_eq ho) fun n => ?_
  induction n with
  | zero => exact fun o v _ q => iff_of_false (fun h => by cases h) fun h => by cases h
  | succ n ih => exact Query.record_agrees ih

/-! ## Aggregations -/

theorem TermsAgg.agrees : Decoder.Agrees TermsAgg.record.decode := by
  refine TermsAgg.record_independent.agrees fun name o v h _ a b => ?_
  simp only [TermsAgg.record]
  split
  · exact Decoder.agrees_string.map h _ b
  · exact Decoder.agrees_size.optional.map h _ b

theorem DateHistogramAgg.agrees : Decoder.Agrees DateHistogramAgg.record.decode := by
  refine DateHistogramAgg.record_independent.agrees fun name o v h _ a b => ?_
  simp only [DateHistogramAgg.record]
  split
  · exact Decoder.agrees_string.map h _ b
  · exact Decoder.agrees_size.optional.map h _ b
  · exact Decoder.agrees_string.optional.map h _ b
  · exact Decoder.agrees_string.optional.map h _ b

theorem FieldAgg.agrees : Decoder.Agrees FieldAgg.record.decode := by
  refine FieldAgg.record_independent.agrees fun name o v h _ a b => ?_
  simp only [FieldAgg.record]
  split
  · exact Decoder.agrees_string.map h _ b
  · exact agrees_scalarText.optional.map h _ b

theorem RawAggregate.agrees {aggregate : Decoder Aggregate} (h : aggregate.Agrees) :
    Decoder.Agrees (RawAggregate.record aggregate).decode := by
  refine (RawAggregate.record_independent aggregate).agrees fun name o v hw _ a b => ?_
  simp only [RawAggregate.record]
  split
  · exact TermsAgg.agrees.optional.map hw _ b
  · exact DateHistogramAgg.agrees.optional.map hw _ b
  · exact FieldAgg.agrees.optional.map hw _ b
  · exact FieldAgg.agrees.optional.map hw _ b
  · exact h.namedOf.optional.map hw _ b
  · exact h.namedOf.optional.map hw _ b

/-- Aggregations are read alike, however deeply they are nested. -/
theorem Aggregate.agrees : Aggregate.decode.Agrees := by
  refine agrees_of_within (fun n o ho => Aggregate.decodeWithin_eq ho) fun n => ?_
  induction n with
  | zero => exact fun o v _ a => iff_of_false (fun h => by cases h) fun h => by cases h
  | succ n ih => exact fun o v hw a => (RawAggregate.agrees ih).map hw RawAggregate.settle a

/-! ## Sort keys -/

theorem sortOptions_agrees : Decoder.Agrees sortOptions.decode := by
  refine sortOptions_independent.agrees fun name o v h _ a b => ?_
  simp only [sortOptions]
  split
  · exact Decoder.agrees_string.optional o v h b
  · exact Decoder.agrees_string.optional.map h _ b

/-- The name of a direction, looked at once it is read in full. -/
theorem decodeOrder_eq_ok {o p : Outline} (h : o.buffered = .ok p) {order : Option String} :
    decodeOrder o = .ok order ↔ (∃ name, Decoder.string p = .ok name ∧ order = some name) ∨
      ((∀ name, Decoder.string p ≠ .ok name) ∧ sortOptions.decode p = .ok order) := by
  have hbuffered : orMalformed o.buffered = .ok p := Record.orMalformed_eq_ok.mpr h
  rw [decodeOrder, hbuffered]
  cases hname : Decoder.string p with
  | ok name => simp [bind, Except.bind, pure, Except.pure, hname, eq_comm]
  | error e =>
    cases horder : sortOptions.decode p <;>
      simp [bind, Except.bind, pure, Except.pure, hname, horder]

/-- What was read ahead writes the same value, which is what is looked at. -/
theorem decodeOrder_iff {o : Outline} {v : Json} (h : o.Writes v) {order : Option String} :
    decodeOrder o = .ok order ↔
      (∃ name, Decoder.string (.ofJson v) = .ok name ∧ order = some name) ∨
        ((∀ name, Decoder.string (.ofJson v) ≠ .ok name) ∧
          sortOptions.decode (.ofJson v) = .ok order) := by
  obtain ⟨p, hp, hw⟩ := h.buffered
  rw [decodeOrder_eq_ok hp]
  simp only [Ne, Decoder.agrees_string p v hw, sortOptions_agrees p v hw]

theorem decodeOrder_agrees : decodeOrder.Agrees := by
  intro o v h order
  rw [decodeOrder_iff h, decodeOrder_iff h.ofJson]

/-- Whether an item of sort keys names at most one field. -/
def NamesOneField : Json → Prop
  | .object vs => vs.length ≤ 1
  | _ => True

/-- Whether each item of a list of sort keys names at most one field. -/
def EachNamesOneField : Json → Prop
  | .array items => ∀ item ∈ items, NamesOneField item
  | _ => True

instance : (v : Json) → Decidable (NamesOneField v)
  | .object vs => inferInstanceAs (Decidable (vs.length ≤ 1))
  | .null | .bool _ | .number _ | .string _ | .array _ => .isTrue trivial

instance : (v : Json) → Decidable (EachNamesOneField v)
  | .array items => inferInstanceAs (Decidable (∀ item ∈ items, NamesOneField item))
  | .null | .bool _ | .number _ | .string _ | .object _ => .isTrue trivial

/-- A member writes the only member of an object that has no other. -/
theorem writesMembers_one {ms : List Member} {vs : Named Json} (h : Outline.WritesMembers ms vs)
    (hone : vs.length ≤ 1) : (ms = [] ∧ vs = []) ∨
      ∃ name o v, ms = [(.ok name, o)] ∧ vs = [(name, v)] ∧ o.Writes v := by
  cases ms with
  | nil =>
    refine .inl ⟨rfl, ?_⟩
    cases vs with
    | nil => rfl
    | cons e rest =>
      obtain ⟨-, hget⟩ | ⟨o, v, ho, -⟩ := h.under e.1
      · simp [Named.get?] at hget
      · cases ho
  | cons m rest =>
    obtain ⟨name, v, hname, hget, hv⟩ := h.exists_of_mem List.mem_cons_self
    obtain ⟨written, o⟩ := m
    cases hname
    obtain rfl : vs = [(name, v)] := by
      have hmem := Named.mem_of_get? hget
      obtain ⟨e, rfl⟩ := List.length_eq_one_iff.mp
        (le_antisymm hone (List.length_pos_of_mem hmem))
      rw [List.mem_singleton.mp hmem]
    refine .inr ⟨name, o, v, ?_, rfl, hv⟩
    cases rest with
    | nil => rfl
    | cons n rest =>
      -- A second member would have the name of the first.
      obtain ⟨other, w, hother, hget', -⟩ :=
        h.exists_of_mem (List.mem_cons_of_mem _ List.mem_cons_self)
      obtain rfl : other = name := by
        have hmem := Named.mem_of_get? hget'
        cases List.mem_singleton.mp hmem
        rfl
      refine absurd ?_ (List.nodup_cons.mp h.once).1
      rw [List.map_cons, hother]
      exact List.mem_cons_self

theorem decodeSortItem_agrees {o : Outline} {v : Json} (h : o.Writes v) (hone : NamesOneField v)
    (l : List SortEntry) : decodeSortItem o = .ok l ↔ decodeSortItem (.ofJson v) = .ok l := by
  cases o with
  | array os ending =>
    obtain ⟨vs, rfl, -⟩ := h.array
    constructor <;> intro h <;> cases h
  | object ms ending =>
    obtain ⟨vs, rfl, hnext, hall⟩ := h.object
    show decodeEntries ms ending = .ok l ↔
      decodeEntries (Outline.membersOfJson vs) .complete = .ok l
    have hcomplete : Ending.complete.next = .ok () := rfl
    obtain ⟨rfl, rfl⟩ | ⟨name, o, v, rfl, rfl, hv⟩ := writesMembers_one hall hone
    · rw [Outline.membersOfJson, decodeEntries, decodeEntries, hnext, hcomplete]
    · simp only [Outline.membersOfJson, decodeEntries, hnext, hcomplete, bind_eq_ok,
        decodeOrder_agrees o v hv]
  | _ => rw [h.leaf rfl]

theorem decodeSort_agrees {o : Outline} {v : Json} (h : o.Writes v) (hone : EachNamesOneField v)
    (l : List SortEntry) : decodeSort o = .ok l ↔ decodeSort (.ofJson v) = .ok l := by
  cases o with
  | array os ending =>
    obtain ⟨vs, rfl, hnext, hall⟩ := h.array
    have hitems : ∀ l, Decoder.items decodeSortItem os ending = .ok l ↔
        Decoder.items decodeSortItem (Outline.itemsOfJson vs) .complete = .ok l := by
      refine Decoder.items_agree ?_ hnext
      refine ((List.forall₂_and_left vs os).mpr ⟨hone, hall.flip⟩).flip.imp ?_
      rintro o v ⟨hone, hw⟩
      exact decodeSortItem_agrees hw hone
    show (Decoder.items decodeSortItem os ending).map List.flatten = .ok l ↔
      (Decoder.items decodeSortItem (Outline.itemsOfJson vs) .complete).map List.flatten = .ok l
    simp only [map_eq_ok, hitems]
  | object ms ending =>
    obtain ⟨vs, rfl, -⟩ := h.object
    constructor <;> intro h <;> cases h
  | _ => rw [h.leaf rfl]

/-! ## Requests -/

namespace SearchRequest

/-- Whether no item of the sort keys of a request names more than one field. The keys are the member
`sort` of an object, or the fourth element of an array. -/
def SortsByOneField : Json → Prop
  | .object vs => ∀ keys, Named.get? "sort" vs = some keys → EachNamesOneField keys
  | .array vs => ∀ keys, vs[3]? = some keys → EachNamesOneField keys
  | _ => True

instance : (v : Json) → Decidable (SortsByOneField v)
  | .object vs =>
    inferInstanceAs (Decidable (∀ keys ∈ Named.get? "sort" vs, EachNamesOneField keys))
  | .array vs => inferInstanceAs (Decidable (∀ keys ∈ vs[3]?, EachNamesOneField keys))
  | .null | .bool _ | .number _ | .string _ => .isTrue trivial

theorem holds_sortsByOneField {v : Json} (h : SortsByOneField v) :
    RawSearchRequest.record.Holds (fun name w => name = "sort" → EachNamesOneField w) v := by
  cases v with
  | object vs =>
    rintro name w hget rfl
    exact h w hget
  | array vs =>
    rintro ⟨name, w⟩ hp rfl
    obtain ⟨i, hi⟩ := List.mem_iff_getElem?.mp hp
    obtain ⟨hfield, hw⟩ := List.getElem?_zip_eq_some.mp hi
    obtain ⟨hlt, -⟩ := List.getElem?_eq_some_iff.mp hfield
    obtain rfl : i = 3 :=
      (List.getElem?_inj hlt RawSearchRequest.record_independent.nodup).mp (hfield.trans rfl)
    exact h w hw
  | _ => trivial

theorem decode_agrees {o : Outline} {v : Json} (h : o.Writes v) (hsort : SortsByOneField v)
    (r : SearchRequest) : decode o = .ok r ↔ decode (.ofJson v) = .ok r := by
  have hset : RawSearchRequest.record.FieldsAgree
      fun name w => name = "sort" → EachNamesOneField w := by
    intro name o v h hone a b
    simp only [RawSearchRequest.record]
    split
    · exact Query.agrees.optional.map h _ b
    · exact Decoder.agrees_size.optional.map h _ b
    · exact Decoder.agrees_size.optional.map h _ b
    · simp only [map_eq_ok, decodeSort_agrees h (hone rfl)]
    · exact Aggregate.agrees.namedOf.optional.map h _ b
    · exact Aggregate.agrees.namedOf.optional.map h _ b
  have hrecord := RawSearchRequest.record_independent.decode_agrees hset h
    (holds_sortsByOneField hsort)
  simp only [decode, map_eq_ok, hrecord]

end SearchRequest

end Request

/-! ## Bodies -/

namespace Json

/-- Blanks alone write no value: a form feed may stand in a blank body, but not before a value. -/
theorem scan_of_blank {body : List UInt8} (h : body.all Text.isAsciiBlank = true) :
    ∃ fault, (scan body).outline = .broken fault := by
  show ∃ fault, (Scanner.scanValue (2 * body.length + 1 + 1) Scanner.nestingLimit body).1 =
    .broken fault
  rw [Scanner.scanValue]
  cases hskip : Scanner.skipBlanks body with
  | nil => exact ⟨_, rfl⟩
  | cons b rest =>
    have hb : b ∈ body := (List.dropWhile_sublist _).subset (hskip ▸ List.mem_cons_self)
    have hascii : Text.isAsciiBlank b = true := List.all_eq_true.mp h b hb
    have hnot : Scanner.isBlankByte b = false := by
      have hhead := List.head?_dropWhile_not Scanner.isBlankByte body
      rw [show body.dropWhile Scanner.isBlankByte = b :: rest from hskip] at hhead
      exact hhead
    obtain rfl : b = 0x0C := by
      simp [Text.isAsciiBlank, Scanner.isBlankByte] at hascii hnot
      tauto
    exact ⟨_, rfl⟩

/-- A body that writes a value is read from the value's outline, and nothing follows it. -/
theorem ofBytes_eq_ok {body : List UInt8} {v : Json} (h : ofBytes body = .ok v) :
    (scan body).outline.toJson = .ok v ∧ (scan body).trailing = false := by
  obtain ⟨w, hw, h⟩ := bind_eq_ok.mp h
  split_ifs at h with htrailing
  · cases h
  · cases h
    exact ⟨Record.orMalformed_eq_ok.mp hw, Bool.eq_false_iff.mpr htrailing⟩

end Json

namespace Request

/-- A body without repeated names, whose items of sort keys name one field each, is read as a
request exactly when the value it writes is, and then as the same one. -/
theorem SearchRequest.ofBytes_iff_ofJson {body : List UInt8} {v : Json}
    (hv : Json.ofBytes body = .ok v) (hrepeats : (scan body).outline.NoRepeats)
    (hsort : SortsByOneField v) :
    (∃ r, ofBytes body = .ok r ∧ ofJson v = .ok r) ∨
      ∃ e e', ofBytes body = .error e ∧ ofJson v = .error e' := by
  obtain ⟨hwrites, htrailing⟩ := Json.ofBytes_eq_ok hv
  have hbody : ofBytes body = decode (scan body).outline := by
    have hblank : ¬ body.all Text.isAsciiBlank = true := by
      intro hblank
      obtain ⟨fault, hfault⟩ := scan_of_blank hblank
      rw [hfault] at hwrites
      cases hwrites
    rw [ofBytes, if_neg hblank, decodeText, htrailing]
    cases decode (scan body).outline <;> rfl
  have hagree := decode_agrees ⟨hrepeats, hwrites⟩ hsort
  rw [hbody]
  cases hr : decode (scan body).outline with
  | ok r => exact .inl ⟨r, rfl, (hagree r).mp hr⟩
  | error e =>
    refine .inr ⟨e, ?_⟩
    cases hr' : ofJson v with
    | ok r =>
      have := (hagree r).mpr hr'
      rw [hr] at this
      cases this
    | error e' => exact ⟨e', rfl, rfl⟩

/-- A body whose names do not ascend, with a member of no field and an array for a record. -/
def unsortedBody : List UInt8 := Text.Utf8.encode
  ("\x7b\"sort\":[\"a\",\x7b\"b\":\x7b\"order\":\"Desc\"\x7d\x7d],\"x\":\x7b\x7d," ++
    "\"query\":[null,null,\x7b\"should\":null,\"must\":\x7b\"term\":\x7b\"f\":7\x7d\x7d\x7d]\x7d")

/-- The body of the example is read as a request, and so is the value it writes. -/
theorem SearchRequest.ofBytes_iff_ofJson_example : ∃ v r, Json.ofBytes unsortedBody = .ok v ∧
    (scan unsortedBody).outline.NoRepeats ∧ SortsByOneField v ∧
      ofBytes unsortedBody = .ok r ∧ ofJson v = .ok r := by
  have hwrites : (Json.ofBytes unsortedBody).toOption.any (SortsByOneField ·) = true := by
    decide +kernel
  have hread : (ofBytes unsortedBody).toOption.isSome = true := by decide +kernel
  have hrepeats : (scan unsortedBody).outline.NoRepeats := by decide +kernel
  cases hv : Json.ofBytes unsortedBody with
  | error e =>
    rw [hv] at hwrites
    cases hwrites
  | ok v =>
    rw [hv] at hwrites
    have hsort : SortsByOneField v := of_decide_eq_true hwrites
    rcases ofBytes_iff_ofJson hv hrepeats hsort with ⟨r, hbody, hjson⟩ | ⟨e, e', hbody, -⟩
    · exact ⟨v, r, rfl, hrepeats, hsort, hbody, hjson⟩
    · rw [hbody] at hread
      cases hread

end Request

end Quarry
