/-
# Ranges of dates

What a range asks of the documents that were kept under a template.

* `integerOf?` — the integer that a value says.
* `writeDocument_date` — a date is kept as the canonical text of its second.
* `RangeOp.Compares` — the comparison for the place of a bound, on seconds.
* `holdsAll_rangePredicates` — a range finds the documents whose seconds keep to its bounds, as far
  as statements know the seconds of the bounds.
-/
import Quarry.Proofs.Document
import Quarry.Proofs.Plan.Leaves
import Quarry.Proofs.Sql.Datetime
import Quarry.Proofs.Sql.Fields
import Quarry.Proofs.Sql.Rows

namespace Quarry

open Quarry.Date Quarry.Decimal Quarry.Json Quarry.Outcome Quarry.Plan Quarry.Request Quarry.Result
open Quarry.Sql Quarry.Template Quarry.Text

/-! ## Integers -/

namespace Date

/-- The integer that a value says: an integer, a float without fraction, or a numeral. -/
def integerOf? : Json → Option Int
  | .number (.int n) => some n
  | .number (.float x) =>
    let parts := Binary64.ofFloat x
    parts.truncate.filter fun n => parts.compareInt n == some .eq
  | .string s => Digits.intOf? (trim s).toList
  | _ => none

/-- The count of an integer is the integer, brought into 64 bits. -/
theorem epochCount_of_integerOf? {v : Json} {n count : Int} (hn : integerOf? v = some n)
    {format : String} (h : epochCount format v = .ok count) : count = Digits.clampInt64 n := by
  unfold integerOf? at hn
  split at hn
  · cases hn
    cases h
    rfl
  · next x =>
    obtain ⟨htruncate, -⟩ := Option.filter_eq_some_iff.mp hn
    have hcount : (Binary64.ofFloat x).toInt64 = count := Except.ok.inj h
    rw [← hcount]
    cases hx : Binary64.ofFloat x with
    | finite negative m e =>
      rw [hx] at htruncate
      rw [← Option.some.inj htruncate]
      rfl
    | nan =>
      rw [hx] at htruncate
      cases htruncate
    | infinite negative =>
      rw [hx] at htruncate
      cases htruncate
  · next s =>
    unfold epochCount at h
    simp only at h
    split at h
    · next c hc =>
      cases h
      obtain ⟨hint, -⟩ := Option.filter_eq_some_iff.mp hc
      rw [hn] at hint
      have hfits := Digits.fitsInt64_iff.mp (Digits.fitsInt64_of_int64Of? hc)
      cases hint
      unfold Digits.clampInt64
      omega
    · cases h
  · cases hn

/-- An integer is kept as the canonical text of its second. -/
theorem toCanonical_of_integerOf? {format : DateFormat} (hf : format.isPassthrough = false)
    {v w : Json} {n : Int} (hn : integerOf? v = some n) (h : format.toCanonical v = .ok w) :
    w = .string (canonicalText (format.secondOf n)) := by
  obtain ⟨count, hcount, hin, hw⟩ := (toCanonical_eq_ok hf).mp h
  obtain rfl := epochCount_of_integerOf? hn hcount
  rwa [clampInt64_of_inCalendar hin] at hw

end Date

/-! ## Kept documents -/

/-- What is kept of a value is the value, or a text. -/
theorem convertValue_writeField {name : String} {format : Option DateFormat} {v w : Option Json}
    (h : convertValue writeField name format v = .ok w) : w = v ∨ ∃ s, w = some (.string s) := by
  unfold convertValue at h
  split at h
  · cases h
    exact .inl rfl
  · cases h
    exact .inl rfl
  · cases h
    exact .inl rfl
  · obtain ⟨x, hx, rfl⟩ := map_eq_ok.mp h
    rcases same_or_text_of_toCanonical hx with rfl | ⟨s, rfl⟩
    · exact .inl rfl
    · exact .inr ⟨s, rfl⟩

/-- What is kept of a document has a text, and holds under each name what its format says. -/
theorem writeDocument_fields {m : Mapping} (hm : Named.Ascending m.dates) {fields : Named Json}
    (hfields : (Json.object fields).Valid) {stored : Json}
    (h : writeDocument (some m) (.object fields) = .ok stored) :
    ∃ kept : Named Json, stored = .object kept ∧ (Json.object kept).Valid ∧ ∀ name,
      convertValue writeField name (m.format? name) (fields.get? name) = .ok (kept.get? name) := by
  have hformats : Named.Ascending m.formats :=
    Named.ascending_map hm fun _ => DateFormat.ofName
  obtain ⟨kept, hkept, rfl⟩ := map_eq_ok.mp h
  cases hfields with
  | object _ hnames hvalues =>
    obtain ⟨hascending, hwritten⟩ :=
      convertFields_get? hformats hnames (mapError_eq_ok.mp hkept)
    refine ⟨kept, rfl, .object kept hascending ?_, hwritten⟩
    rintro ⟨name, w⟩ hmem
    have hget := Named.get?_of_mem hascending hmem
    have hname := hwritten name
    rw [hget] at hname
    rcases convertValue_writeField hname with hsame | ⟨s, hs⟩
    · exact hvalues _ (Named.mem_of_get? hsame.symm)
    · cases hs
      exact .string s

/-- A date is kept as the canonical text of its second. -/
theorem writeDocument_date {m : Mapping} (hm : Named.Ascending m.dates) {fields : Named Json}
    (hfields : (Json.object fields).Valid) {stored : Json}
    (h : writeDocument (some m) (.object fields) = .ok stored) {field : String}
    {format : DateFormat} (hformat : m.format? field = some format)
    (hepoch : format.isPassthrough = false) {v : Json} (hv : fields.get? field = some v) {n : Int}
    (hn : integerOf? v = some n) :
    ∃ kept : Named Json, stored = .object kept ∧ (Json.object kept).Valid ∧
      kept.get? field = some (.string (canonicalText (format.secondOf n))) := by
  obtain ⟨kept, hstored, hvalid, hwritten⟩ := writeDocument_fields hm hfields h
  refine ⟨kept, hstored, hvalid, ?_⟩
  have hfield := hwritten field
  rw [hformat, hv] at hfield
  have hconvert : convertValue writeField field (some format) (some v) =
      (format.toCanonical v).map some := by
    cases v with
    | null => cases hn
    | _ => rfl
  rw [hconvert] at hfield
  obtain ⟨w, hw, hget⟩ := map_eq_ok.mp hfield
  rw [← hget, toCanonical_of_integerOf? hepoch hn hw]

/-- The value of a date in a document that was kept. -/
theorem fieldCell_date {kept : Named Json} (hvalid : (Json.object kept).Valid) {field : String}
    (hfield : IsFieldName field) {text : String} (hget : kept.get? field = some (.string text))
    {content : String}
    (hcontent : (Verbatim.ofText? (Json.object kept).text).map Verbatim.text = some content) :
    fieldCell content field = .ok (.text text) := by
  have hread := Verbatim.ofText?_text hvalid.writable
  by_cases hdeep : (Json.object kept).nesting ≤ Verbatim.nestingLimit
  · rw [hread, if_pos hdeep, Option.map_some, Verbatim.text_ofJson hvalid.writable] at hcontent
    rw [← Option.some.inj hcontent, fieldCell_text hvalid hdeep hfield hget]
    show Except.ok (Cell.text (String.ofList (Verbatim.plainChars (Verbatim.written text)))) = _
    rw [Verbatim.plainChars_written, String.ofList_toList]
  · rw [hread, if_neg hdeep] at hcontent
    cases hcontent

/-! ## Bounds -/

/-- The comparison for the place of a bound, on seconds. -/
def Request.RangeOp.Compares : RangeOp → Int → Int → Prop
  | .gt, s, t => t < s
  | .gte, s, t => t ≤ s
  | .lt, s, t => s < t
  | .lte, s, t => s ≤ t

instance (op : RangeOp) (s t : Int) : Decidable (op.Compares s t) :=
  match op with
  | .gt => inferInstanceAs (Decidable (t < s))
  | .gte => inferInstanceAs (Decidable (t ≤ s))
  | .lt => inferInstanceAs (Decidable (s < t))
  | .lte => inferInstanceAs (Decidable (s ≤ t))

/-- The bounds of a range that take effect. -/
def Request.RangeParams.bounds (p : RangeParams) : List (RangeOp × Bound) :=
  p.effectiveUpper.toList ++ p.effectiveLower.toList

namespace Plan

/-- Comparisons of texts of instants are those of the instants. -/
theorem holds_instantText {op : RangeOp} {s t : Int} (hs : InFourDigitYear s)
    (ht : InStatements t) :
    (comparisonOf op).holds (SortKey.compare (.text (instantText s)) (.text (instantText t))) =
      true ↔ op.Compares s t := by
  have hcompare : SortKey.compare (.text (instantText s)) (.text (instantText t)) = compare s t :=
    compare_instantText hs ht
  rw [hcompare]
  cases op with
  | gt => exact beq_iff_eq.trans compare_gt_iff_gt
  | gte => exact bne_iff_ne.trans compare_ge_iff_ge
  | lt => exact beq_iff_eq.trans compare_lt_iff_lt
  | lte => exact bne_iff_ne.trans compare_le_iff_le

/-- The predicate for a bound is true of a date that keeps to the bound, if statements know the
second of the bound. -/
theorem eval_boundPredicate {scope : Scope} {row : TableRow} (hrow : scope.find? none = some row)
    {field : String} {s : Int} (hs : InFourDigitYear s)
    (hcell : fieldCell row.content field = .ok (.text (canonicalText s))) {format : DateFormat}
    (hepoch : format.isPassthrough = false) {op : RangeOp} {b : Bound} {k : Int}
    (hk : integerOf? b.toJson = some k) {e : Expr}
    (h : boundPredicate field format op b = .ok e) :
    ∃ c, e.eval scope = .ok c ∧
      (isTrue c = true ↔
        InStatements (format.secondOf k) ∧ op.Compares s (format.secondOf k)) := by
  obtain ⟨v, hv, he⟩ := bind_eq_ok.mp h
  obtain rfl := toCanonical_of_integerOf? hepoch hk hv
  cases he
  have hdate : ∀ t, datetimeCell (.text (canonicalText t)) =
      if InStatements t then .text (instantText t) else .null := by
    intro t
    rw [datetimeCell, datetimeText?_canonicalText]
    split_ifs <;> rfl
  have hknown : InStatements s := by
    have hyear := inFourDigitYear_iff.mp hs
    unfold InStatements
    omega
  refine ⟨compareCells (comparisonOf op) (datetimeCell (.text (canonicalText s)))
    (datetimeCell (.text (canonicalText (format.secondOf k)))), ?_, ?_⟩
  · simp only [Expr.eval, hrow, hcell]
    rfl
  · rw [isTrue_compareCells, hdate, hdate, if_pos hknown]
    by_cases hbound : InStatements (format.secondOf k)
    · rw [if_pos hbound]
      simp [hbound, sortKey, holds_instantText hs hbound]
    · rw [if_neg hbound]
      simp [hbound]

/-! ## Ranges -/

/-- A range finds a document under a template exactly when the second of its date compares with the
second of each bound as the range says, and statements know the second of the bound. -/
theorem holdsAll_rangePredicates {m : Mapping} (hm : Named.Ascending m.dates)
    {fields : Named Json} (hfields : (Json.object fields).Valid) {stored : Json}
    (hstored : writeDocument (some m) (.object fields) = .ok stored) {field : String}
    (hfield : IsFieldName field) {format : DateFormat} (hformat : m.format? field = some format)
    (hepoch : format.isPassthrough = false) {v : Json} (hv : fields.get? field = some v) {n : Int}
    (hn : integerOf? v = some n) (hyear : InFourDigitYear (format.secondOf n)) {row : TableRow}
    (hrow : (Verbatim.ofText? stored.text).map Verbatim.text = some row.content) {q : Query}
    {p : RangeParams} {rest : Named RangeParams} (hq : q.clause = .range ((field, p) :: rest))
    (hrange : (rangeFormat p).isPassthrough = false)
    (hbounds : ∀ b ∈ p.bounds, ∃ k, integerOf? b.2.toJson = some k) {ps : List Expr}
    (hps : predicates (some q) = .ok ps) (name : String) :
    ∃ found, holdsAll [⟨name, row⟩] ps = .ok found ∧
      (found = true ↔ ∀ b ∈ p.bounds, ∀ k, integerOf? b.2.toJson = some k →
        InStatements ((rangeFormat p).secondOf k) ∧
          b.1.Compares (format.secondOf n) ((rangeFormat p).secondOf k)) := by
  obtain ⟨kept, rfl, hvalid, hget⟩ := writeDocument_date hm hfields hstored hformat hepoch hv hn
  have hcell := fieldCell_date hvalid hfield hget hrow
  have hleaves : leaves (some q) =
      p.bounds.map fun b => .bound field (rangeFormat p) b.1 b.2 := by
    rw [leaves, q.leaves_eq, hq]
    rfl
  rw [predicates_eq_ok, hleaves, List.forall₂_map_left_iff] at hps
  refine holdsAll_of_forall₂ (((List.forall₂_and_left _ _).mpr ⟨hbounds, hps⟩).imp ?_)
  rintro b e ⟨⟨k, hk⟩, he⟩
  have hscope : Scope.find? [⟨name, row⟩] none = some row := rfl
  obtain ⟨c, hc, hiff⟩ := eval_boundPredicate hscope hyear hcell hrange hk he
  refine ⟨c, hc, hiff.trans ?_⟩
  simp only [hk, Option.some.injEq, forall_eq']

/-- A range of visits by their starts. -/
def visitsRange (first last : Int) : RangeParams where
  gte := some (.ofInt first)
  lt := some (.ofInt last)

/-- A query for visits by their starts. -/
def visitsBetween (first last : Int) : Query where
  range := some [("start", visitsRange first last)]

/-- What such a range asks of a document. -/
def startsBetween (first last : String) : List Expr :=
  [.compare .lt (.datetime (.field none "start")) (.datetime (.constant (.text last))),
    .compare .ge (.datetime (.field none "start")) (.datetime (.constant (.text first)))]

/-- A visit that started at an instant, as it is kept. -/
def visitAt (start : String) : Json := .object [("start", .string start)]

/-- A visit that started in the last second before 1970 is in the range of that second. -/
theorem holdsAll_rangePredicates_example :
    writeDocument (some visitsMapping) (.object [("start", .ofInt (-1))]) =
      .ok (visitAt "1969-12-31T23:59:59Z") ∧
    predicates (some (visitsBetween (-1000) 0)) =
      .ok (startsBetween "1969-12-31T23:59:59Z" "1970-01-01T00:00:00Z") ∧
    holdsAll [⟨"visits", ⟨1, (visitAt "1969-12-31T23:59:59Z").text⟩⟩]
      (startsBetween "1969-12-31T23:59:59Z" "1970-01-01T00:00:00Z") = .ok true := by
  have hvalid : (Json.object [("start", .ofInt (-1))]).Valid := by
    refine .object _ (by decide) ?_
    rintro entry hentry
    cases List.mem_singleton.mp hentry
    exact .int (-1) (by decide)
  have hstored : writeDocument (some visitsMapping) (.object [("start", .ofInt (-1))]) =
    .ok (visitAt "1969-12-31T23:59:59Z") := rfl
  have hps : predicates (some (visitsBetween (-1000) 0)) =
      .ok (startsBetween "1969-12-31T23:59:59Z" "1970-01-01T00:00:00Z") := by
    decide +kernel
  have hbounds : ∀ b ∈ (visitsRange (-1000) 0).bounds,
      b = (.lt, .ofInt 0) ∨ b = (.gte, .ofInt (-1000)) := by
    intro b hb
    rcases List.mem_cons.mp hb with rfl | hb
    · exact .inl rfl
    · exact .inr (List.mem_singleton.mp hb)
  have hlast : integerOf? (Bound.ofInt 0).toJson = some 0 := rfl
  have hfirst : integerOf? (Bound.ofInt (-1000)).toJson = some (-1000) := rfl
  have hintegers : ∀ b ∈ (visitsRange (-1000) 0).bounds, ∃ k, integerOf? b.2.toJson = some k := by
    intro b hb
    rcases hbounds b hb with rfl | rfl
    · exact ⟨0, hlast⟩
    · exact ⟨-1000, hfirst⟩
  let row : TableRow := ⟨1, (visitAt "1969-12-31T23:59:59Z").text⟩
  have hrow : (Verbatim.ofText? (visitAt "1969-12-31T23:59:59Z").text).map Verbatim.text =
    some row.content := by decide +kernel
  obtain ⟨found, hfound, hiff⟩ := holdsAll_rangePredicates (m := visitsMapping) (by decide) hvalid
    hstored (by decide) rfl rfl rfl rfl (by decide +kernel) hrow (p := visitsRange (-1000) 0)
    rfl rfl hintegers hps "visits"
  refine ⟨hstored, hps, ?_⟩
  rw [hfound, hiff.mpr]
  intro b hb k hk
  rcases hbounds b hb with rfl | rfl
  · cases hlast.symm.trans hk
    exact ⟨by decide +kernel, by decide +kernel⟩
  · cases hfirst.symm.trans hk
    exact ⟨by decide +kernel, by decide +kernel⟩

/-- A range up to the first second of the year 10000 does not find a visit of 1970. -/
theorem holdsAll_to_year_10000 :
    writeDocument (some visitsMapping) (.object [("start", .ofInt 0)]) =
      .ok (visitAt "1970-01-01T00:00:00Z") ∧
    predicates (some (visitsBetween 0 253402300800000)) =
      .ok (startsBetween "1970-01-01T00:00:00Z" "+10000-01-01T00:00:00Z") ∧
    holdsAll [⟨"visits", ⟨1, (visitAt "1970-01-01T00:00:00Z").text⟩⟩]
      (startsBetween "1970-01-01T00:00:00Z" "+10000-01-01T00:00:00Z") = .ok false :=
  ⟨rfl, by decide +kernel, by decide +kernel⟩

end Plan

end Quarry
