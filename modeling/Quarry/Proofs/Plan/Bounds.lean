/-
# Bounds are read as dates are kept

A bound of a range is a date from a client. Queries take it for the instant that a document with the
same value is kept with, and whether it was written as a number or as a string makes no difference.

* `numberOf?_ofInt` — integers of 64 bits, signed or not, are read from their numerals.
* `Bound.toJson_ofInt`, `Bound.toJson_of_decode_string` — the value of a bound, by how it was sent.
* `DateFormat.ConvertsAlike` — two values have the same canonical text, or neither has one.
* `bound_readAsKept` — ranges compare with the texts that documents are kept with.
-/
import Quarry.Plan.Predicate
import Quarry.Proofs.Document
import Quarry.Proofs.Json.ReadBack
import Quarry.Proofs.Request.Ordered

namespace Quarry

open Quarry.Date Quarry.Json Quarry.Outcome Quarry.Plan Quarry.Request Quarry.Sql Quarry.Template
open Quarry.Text

/-! ## Values of bounds -/

/-- Integers of 64 bits are read from their numerals. -/
theorem numberOf?_ofInt {n : Int} (h : -9223372036854775808 ≤ n ∧ n ≤ 18446744073709551615) :
    numberOf? (Digits.ofInt n) = some (.int n) := by
  have hscan : scan (Utf8.encode (Digits.ofInt n)) = ⟨.number (.int n), false⟩ :=
    Scanner.scan_text (.int n h) (Nat.zero_le _) nofun
  rw [numberOf?, hscan]

namespace Request.Bound

/-- The value of an integer is the integer. -/
theorem toJson_ofInt {n : Int} (h : -9223372036854775808 ≤ n ∧ n ≤ 18446744073709551615) :
    (ofInt n).toJson = .ofInt n := by
  have hnumber : numberOf? (ofInt n).numeral = some (.int n) := numberOf?_ofInt h
  have hint64 : Digits.int64Of? (ofInt n).numeral = if Digits.fitsInt64 n then some n else none :=
    Digits.int64Of?_ofInt n
  rw [toJson, hint64]
  by_cases hfits : Digits.fitsInt64 n = true
  · rw [if_pos hfits]
  · -- Beyond the signed integers the numeral is read once more, as a number.
    rw [if_neg hfits]
    simp only [hnumber]
    rfl

/-- A string is decoded as the numeral between its blanks. -/
theorem eq_of_decode_string {s : String} {b : Bound}
    (h : decodeValue Bound.decode (.string s) = .ok b) : b = ⟨trim s, true⟩ := by
  change Bound.decode (.string s) = .ok b at h
  rw [Bound.decode] at h
  split at h
  · next found hfound =>
    cases h
    obtain ⟨n, -, rfl⟩ := Option.map_eq_some_iff.mp hfound
    rfl
  · cases h

/-- The value of a string is the integer that it writes, or else its numeral. -/
theorem toJson_of_decode_string {s : String} {b : Bound}
    (h : decodeValue Bound.decode (.string s) = .ok b) :
    b.toJson = ((Digits.int64Of? (trim s)).map Json.ofInt).getD (.string (trim s)) := by
  rw [eq_of_decode_string h, toJson]
  cases Digits.int64Of? (trim s) <;> rfl

end Request.Bound

/-! ## Conversion -/

namespace Date

/-- Whether two values have the same canonical text, or both have none. -/
def DateFormat.ConvertsAlike (format : DateFormat) (v w : Json) : Prop :=
  (∃ text, format.toCanonical v = .ok (.string text) ∧
    format.toCanonical w = .ok (.string text)) ∨
  ((∃ e, format.toCanonical v = .error e) ∧ ∃ e, format.toCanonical w = .error e)

/-- A value is converted to a text, or not at all. -/
theorem DateFormat.ConvertsAlike.refl {format : DateFormat} (hf : format.isPassthrough = false)
    (v : Json) : format.ConvertsAlike v v := by
  cases h : format.toCanonical v with
  | error e => exact .inr ⟨⟨e, h⟩, ⟨e, h⟩⟩
  | ok w =>
    obtain ⟨count, -, -, rfl⟩ := (toCanonical_eq_ok hf).mp h
    exact .inl ⟨_, h, h⟩

/-- Strings with the same text between their blanks are converted alike. -/
theorem DateFormat.convertsAlike_of_trim {format : DateFormat} (hf : format.isPassthrough = false)
    {s t : String} (h : trim s = trim t) : format.ConvertsAlike (.string s) (.string t) := by
  cases hs : Digits.int64Of? (trim s) with
  | some n =>
    have ht := h ▸ hs
    have heq : format.toCanonical (.string s) = format.toCanonical (.string t) := by
      rw [toCanonical_of_epoch hf, toCanonical_of_epoch hf, epochCount, epochCount, hs, ht]
    rw [ConvertsAlike, heq]
    exact ConvertsAlike.refl hf _
  | none =>
    have ht := h ▸ hs
    refine .inr ⟨⟨.notInteger s format.name, ?_⟩, ⟨.notInteger t format.name, ?_⟩⟩
    · rw [toCanonical_of_epoch hf, epochCount, hs]
      rfl
    · rw [toCanonical_of_epoch hf, epochCount, ht]
      rfl

/-- A numeral is converted like the integer that it writes. -/
theorem DateFormat.toCanonical_string {format : DateFormat} (hf : format.isPassthrough = false)
    {s : String} {n : Int} (hs : Digits.int64Of? (trim s) = some n) :
    format.toCanonical (.string s) = format.toCanonical (.ofInt n) := by
  have hfits := Digits.fitsInt64_iff.mp (Digits.fitsInt64_of_int64Of? hs)
  have hclamp : Digits.clampInt64 n = n := by
    unfold Digits.clampInt64
    omega
  have hcount : epochCount format.name (.ofInt n) = .ok n := congrArg Except.ok hclamp
  rw [toCanonical_of_epoch hf, toCanonical_of_epoch hf, hcount, epochCount, hs]

end Date

/-- Whether a value is an integer of 64 bits, signed or not, or a string. -/
def IsSent (v : Json) : Prop :=
  (∃ n : Int, (-9223372036854775808 ≤ n ∧ n ≤ 18446744073709551615) ∧ v = .ofInt n) ∨
    ∃ s, v = .string s

/-- What is read as a bound is converted like the value of the bound. -/
theorem convertsAlike_toJson {format : DateFormat} (hf : format.isPassthrough = false) {v : Json}
    (hv : IsSent v) {b : Bound} (hb : decodeValue Bound.decode v = .ok b) :
    format.ConvertsAlike b.toJson v := by
  obtain ⟨n, hn, rfl⟩ | ⟨s, rfl⟩ := hv
  · have hofInt : b = Bound.ofInt n := (Except.ok.inj hb).symm
    rw [hofInt, Bound.toJson_ofInt hn]
    exact .refl hf _
  · rw [Bound.toJson_of_decode_string hb]
    cases hs : Digits.int64Of? (trim s) with
    | some n =>
      rw [DateFormat.ConvertsAlike, DateFormat.toCanonical_string hf hs]
      exact DateFormat.ConvertsAlike.refl hf _
    | none => exact DateFormat.convertsAlike_of_trim hf (trim_trim s)

/-! ## Predicates -/

/-- The comparison of a field with a text, both taken as instants. -/
def comparesWith (field : String) (op : RangeOp) (text : String) : Expr :=
  .compare (comparisonOf op) (.datetime (.field none field)) (.datetime (.constant (.text text)))

/-- Whether ranges on a field compare with the text that documents are kept with under it, or fail
where documents do. -/
def ComparesAsKept (field : String) (format : DateFormat) (b : Bound) (v : Json) : Prop :=
  (∃ text, (∀ op, boundPredicate field format op b = .ok (comparesWith field op text)) ∧
    ∀ (m : Mapping) (fields stored : Named Json), (m.dates.map Prod.fst).Nodup →
      m.format? field = some format → fields.Ascending → fields.get? field = some v →
      writeDocument (some m) (.object fields) = .ok (.object stored) →
      stored.get? field = some (.string text)) ∨
  ((∀ op, ∃ e, boundPredicate field format op b = .error e) ∧
    ∀ (m : Mapping) (fields : Named Json), (m.dates.map Prod.fst).Nodup →
      m.format? field = some format → fields.Ascending → fields.get? field = some v →
      ∃ e, writeDocument (some m) (.object fields) = .error (.format e))

theorem comparesAsKept_of_convertsAlike {field : String} {format : DateFormat} {b : Bound} {v : Json}
    (hv : v ≠ .null) (h : format.ConvertsAlike b.toJson v) : ComparesAsKept field format b v := by
  have hconvert : convertValue writeField field (some format) (some v) =
      (format.toCanonical v).map some := convertValue_of_ne_null hv field format
  obtain ⟨text, hbound, htext⟩ | ⟨⟨d, hbound⟩, e, he⟩ := h
  · refine .inl ⟨text, fun op => ?_, fun m fields stored hm hformat hfields hget hwrite => ?_⟩
    · rw [boundPredicate, hbound]
      rfl
    · rw [← m.fst_formats] at hm
      rw [writeDocument, convertDocument_object] at hwrite
      obtain ⟨out, hout, hobject⟩ := map_eq_ok.mp hwrite
      obtain rfl := Json.object.inj hobject
      have hfield := (get?_of_convertFields hm hfields (mapError_eq_ok.mp hout)).2 field
      rw [← Mapping.format?, hformat, hget, hconvert, htext] at hfield
      exact (Except.ok.inj hfield).symm
  · refine .inr ⟨fun op => ⟨d, ?_⟩, fun m fields hm hformat hfields hget => ?_⟩
    · rw [boundPredicate, hbound]
      rfl
    · rw [← m.fst_formats] at hm
      rw [writeDocument, convertDocument_object]
      cases hout : convertFields writeField m.formats fields with
      | error d => exact ⟨d, rfl⟩
      | ok out =>
        have hfield := (get?_of_convertFields hm hfields hout).2 field
        rw [← Mapping.format?, hformat, hget, hconvert, he] at hfield
        cases hfield

/-- A side of a range: its operator and the value of its bound. -/
def sideOf (bound : RangeOp × Bound) : RangeOp × Json := (bound.1, bound.2.toJson)

theorem map_sideOf_upper (p : RangeParams) : p.upper.map sideOf =
    match p.lte.map Bound.toJson, p.lt.map Bound.toJson with
    | some v, _ => some (.lte, v)
    | none, some v => some (.lt, v)
    | none, none => (p.upperTo.map Bound.toJson).map fun v =>
        (if p.includeUpper = some false then .lt else .lte, v) := by
  unfold RangeParams.upper
  cases p.lte <;> cases p.lt <;> cases p.upperTo <;> rfl

theorem map_sideOf_lower (p : RangeParams) : p.lower.map sideOf =
    match p.gte.map Bound.toJson, p.gt.map Bound.toJson with
    | some v, _ => some (.gte, v)
    | none, some v => some (.gt, v)
    | none, none => (p.lowerFrom.map Bound.toJson).map fun v =>
        (if p.includeLower = some false then .gt else .gte, v) := by
  unfold RangeParams.lower
  cases p.gte <;> cases p.gt <;> cases p.lowerFrom <;> rfl

/-- What a range asks depends on its format and its sides only. -/
theorem rangePredicates_cons (field : String) (p : RangeParams) (rest : Named RangeParams) :
    rangePredicates ((field, p) :: rest) =
      ((p.upper.map sideOf).toList ++ (p.lower.map sideOf).toList).mapM fun (op, v) =>
        ((rangeFormat p).toCanonical v).map fun w => comparesWith field op (boundText w) := by
  have hbound : ∀ op b, boundPredicate field (rangeFormat p) op b =
      ((rangeFormat p).toCanonical b.toJson).map fun w => comparesWith field op (boundText w) := by
    intro op b
    unfold boundPredicate
    cases (rangeFormat p).toCanonical b.toJson <;> rfl
  simp only [rangePredicates, hbound]
  cases p.upper <;> cases p.lower <;> rfl

/-- The names under which a range has bounds. -/
def boundNames : List String := ["gt", "gte", "lt", "lte", "from", "to"]

/-- A bound takes its place, where it counts by its value. -/
theorem exists_place {name : String} (hname : name ∈ boundNames) (p : RangeParams) :
    ∃ place : Option Bound → RangeParams,
      (∀ o, RangeParams.record.set name o p = (Decoder.optional Bound.decode o).map place) ∧
      ∀ b c : Bound, b.toJson = c.toJson → ∀ field rest,
        rangePredicates ((field, place (some b)) :: rest) =
          rangePredicates ((field, place (some c)) :: rest) := by
  simp only [boundNames, List.mem_cons, List.not_mem_nil, or_false] at hname
  rcases hname with rfl | rfl | rfl | rfl | rfl | rfl
  -- Whichever bound it is, both sides of the range have the same operators and values.
  all_goals
    refine ⟨_, fun _ => rfl, fun b c h field rest => ?_⟩
    simp only [rangePredicates_cons, map_sideOf_upper, map_sideOf_lower, Option.map_some, h]
    rfl

/-- Whether it makes no difference, under every name of a bound and every format, which of two
values a range has there. -/
def AskAlike (v w : Json) : Prop :=
  ∀ name ∈ boundNames, ∀ p, ∃ q q', RangeParams.record.set name (.ofJson v) p = .ok q ∧
    RangeParams.record.set name (.ofJson w) p = .ok q' ∧ ∀ field rest,
      rangePredicates ((field, q) :: rest) = rangePredicates ((field, q') :: rest)

/-- Bounds are read as dates are kept. What an integer of 64 bits or a string is converted to as a
bound is what it is converted to in documents, or it is converted in neither place. A range asks the
same of an integer and of a string that writes it. -/
theorem bound_readAsKept :
    (∀ v b, IsSent v → decodeValue Bound.decode v = .ok b → ∀ format : DateFormat,
      format.isPassthrough = false → format.ConvertsAlike b.toJson v ∧
        ∀ field, ComparesAsKept field format b v) ∧
    ∀ n s b, Digits.int64Of? (trim s) = some n → decodeValue Bound.decode (.string s) = .ok b →
      AskAlike (.ofInt n) (.string s) := by
  refine ⟨fun v b hv hb format hf => ?_, fun n s b hs hb => ?_⟩
  · have hnull : v ≠ .null := by
      rintro rfl
      cases hb
    have halike := convertsAlike_toJson hf hv hb
    exact ⟨halike, fun field => comparesAsKept_of_convertsAlike hnull halike⟩
  · have hfits := Digits.fitsInt64_iff.mp (Digits.fitsInt64_of_int64Of? hs)
    have hsame : (Bound.ofInt n).toJson = b.toJson := by
      rw [Bound.toJson_of_decode_string hb, hs]
      unfold Digits.int64Min Digits.int64Max at hfits
      exact Bound.toJson_ofInt (by omega)
    intro name hname p
    obtain ⟨place, hset, hpredicates⟩ := exists_place hname p
    refine ⟨place (some (.ofInt n)), place (some b), hset _, ?_, hpredicates _ _ hsame⟩
    rw [hset]
    exact congrArg (Except.map place ∘ Except.map some) hb

/-- Milliseconds in a string with blanks around it. -/
def paddedMillis : String := " 1654718054570\t"

/-- A range from such a string, in any format, asks what the range from the number asks; and in
milliseconds it compares with what a document with the string is kept with. -/
theorem bound_readAsKept_example :
    AskAlike (.ofInt 1654718054570) (.string paddedMillis) ∧
    ComparesAsKept "start" .epochMillis ⟨"1654718054570", true⟩ (.string paddedMillis) := by
  have hnumber : numberOf? "1654718054570" = some (.int 1654718054570) :=
    numberOf?_ofInt (n := 1654718054570) (by decide)
  have htext : Bound.ofText? paddedMillis = some ⟨"1654718054570", true⟩ := by
    have htrim : trim paddedMillis = "1654718054570" := by decide +kernel
    rw [Bound.ofText?, Bound.parse?, htrim, hnumber]
    rfl
  have hb : decodeValue Bound.decode (.string paddedMillis) = .ok ⟨"1654718054570", true⟩ := by
    show Bound.decode (.string paddedMillis) = _
    rw [Bound.decode, htext]
  exact ⟨bound_readAsKept.2 _ _ _ (by decide +kernel) hb,
    (bound_readAsKept.1 _ _ (.inr ⟨_, rfl⟩) hb .epochMillis rfl).2 "start"⟩

end Quarry
