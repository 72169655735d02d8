/-
# Maxima of fields

When the greatest of a field is the maximum of its numbers, with a number in the place of each that
is missing.

* `Number.rational` — the number that a JSON number stands for.
* `Contributes`, `IsMaximum` — the numbers of documents, and the maximum of them.
* `StandsIn` — a number can stand in for missing ones among documents: none is missing, or it is
  written as an integer that has its value, or as one that does not matter beside a greater number.
* `isMaximum_iff` — then, and only then, the greatest is the maximum.
* `compile_maximum` — so it is for the numbers of plans, of all documents and of buckets.
-/
import Quarry.Proofs.Plan.Numbers
import Quarry.Proofs.Sql.Greatest
import Quarry.Proofs.Text.Digits

namespace Quarry

open Quarry.Decimal Quarry.Json Quarry.Outcome Quarry.Request Quarry.Result Quarry.Sql Quarry.Text

/-! ## Numbers -/

/-- The number that the parts of a float stand for, if it is finite. -/
def Decimal.Binary64.rational : Binary64 → ℚ
  | .finite negative m e => signed negative m * 2 ^ e
  | _ => 0

/-- The number that a JSON number stands for. -/
def Json.Number.rational : Number → ℚ
  | .int n => n
  | .float x => (Binary64.ofFloat x).rational

namespace Plan

/-! ## Maxima -/

/-- The field of a document is an integer or missing. -/
def IntegerOrMissing (field : String) (d : TableRow) : Prop :=
  (∃ n, fieldCell d.content field = .ok (.int n)) ∨ fieldCell d.content field = .ok .null

/-- A document contributes the integer of its field, or else the number given for missing ones. -/
inductive Contributes (field : String) (missing : Option Number) (d : TableRow) : ℚ → Prop
  | present {n : Int} : fieldCell d.content field = .ok (.int n) → Contributes field missing d n
  | missing {m : Number} : fieldCell d.content field = .ok .null → missing = some m →
      Contributes field missing d m.rational

/-- A value is the maximum of what documents contribute; it is null if none contributes. -/
structure IsMaximum (field : String) (missing : Option Number) (ds : List TableRow) (v : Json) :
    Prop where
  null : v = .null ↔ ∀ d ∈ ds, ∀ q, ¬ Contributes field missing d q
  bound : ∀ d ∈ ds, ∀ q, Contributes field missing d q → ∃ m, v = .number m ∧ q ≤ m.rational
  attained : ∀ m, v = .number m → ∃ d ∈ ds, Contributes field missing d m.rational

/-- A number stands in for the missing ones among documents. -/
inductive StandsIn (field : String) (missing : Option Number) (ds : List TableRow) : Prop
  /-- No document is without the field. -/
  | complete : (∀ d ∈ ds, fieldCell d.content field ≠ .ok .null) → StandsIn field missing ds
  | none : missing = none → StandsIn field missing ds
  /-- The text of the number is an integer of 64 bits, and of the same value. -/
  | exact {m : Number} {k : Int} : missing = some m → Digits.int64Of? m.plainText = some k →
      m.rational = k → StandsIn field missing ds
  /-- It is an integer of another value, but neither is greater than that of a document. -/
  | below {m : Number} {k n : Int} {d : TableRow} : missing = some m →
      Digits.int64Of? m.plainText = some k → d ∈ ds → fieldCell d.content field = .ok (.int n) →
      k ≤ n → m.rational ≤ n → StandsIn field missing ds

/-- Every integer of 64 bits stands in for missing numbers, whatever the documents are. -/
theorem standsIn_int {n : Int} (h : Digits.fitsInt64 n = true) (field : String)
    (ds : List TableRow) : StandsIn field (some (.int n)) ds := by
  refine .exact rfl (k := n) ?_ rfl
  rw [Number.plainText, Digits.int64Of?_ofInt, if_pos h]

/-- Beside a document without the field, a number stands in just if its text is an integer of 64 bits
that has its value or does not matter. -/
theorem standsIn_iff_of_missing {field : String} {m : Number} {ds : List TableRow} {d : TableRow}
    (hd : d ∈ ds) (hlack : fieldCell d.content field = .ok .null) :
    StandsIn field (some m) ds ↔ ∃ k, Digits.int64Of? m.plainText = some k ∧ (m.rational = k ∨
      ∃ e ∈ ds, ∃ n : Int, fieldCell e.content field = .ok (.int n) ∧ k ≤ n ∧ m.rational ≤ n) := by
  constructor
  · intro h
    cases h with
    | complete h => exact absurd hlack (h d hd)
    | none h => cases h
    | exact h hk hexact =>
      cases h
      exact ⟨_, hk, .inl hexact⟩
    | below h hk he hn hkn hmn =>
      cases h
      exact ⟨_, hk, .inr ⟨_, he, _, hn, hkn, hmn⟩⟩
  · rintro ⟨k, hk, hexact | ⟨e, he, n, hn, hkn, hmn⟩⟩
    · exact .exact rfl hk hexact
    · exact .below rfl hk he hn hkn hmn

section

variable {field : String} {missing : Option Number} {d : TableRow} {q : ℚ}

theorem contributes_present {n : Int} (h : fieldCell d.content field = .ok (.int n)) :
    Contributes field missing d q ↔ q = n := by
  constructor
  · intro hq
    cases hq with
    | present h' =>
      cases h.symm.trans h'
      rfl
    | missing h' => cases h.symm.trans h'
  · rintro rfl
    exact .present h

theorem contributes_missing (h : fieldCell d.content field = .ok .null) :
    Contributes field missing d q ↔ ∃ m, missing = some m ∧ q = m.rational := by
  constructor
  · intro hq
    cases hq with
    | present h' => cases h.symm.trans h'
    | missing _ hm => exact ⟨_, hm, rfl⟩
  · rintro ⟨m, hm, rfl⟩
    exact .missing h hm

end

section

variable {field : String} {missing : Option Number} {ds : List TableRow}

/-- Null is the maximum where nothing contributes. -/
theorem isMaximum_null (h : ∀ d ∈ ds, ∀ q, ¬ Contributes field missing d q) :
    IsMaximum field missing ds .null :=
  ⟨iff_of_true rfl h, fun d hd q hq => absurd hq (h d hd q), nofun⟩

/-- An integer is the maximum just if it is contributed and nothing greater is. -/
theorem isMaximum_ofInt {n : Int} : IsMaximum field missing ds (.ofInt n) ↔
    (∀ d ∈ ds, ∀ q, Contributes field missing d q → q ≤ n) ∧
      ∃ d ∈ ds, Contributes field missing d n := by
  constructor
  · intro h
    refine ⟨fun d hd q hq => ?_, h.attained (.int n) rfl⟩
    obtain ⟨_, ⟨⟩, hle⟩ := h.bound d hd q hq
    exact hle
  · rintro ⟨hbound, hattained⟩
    refine ⟨iff_of_false nofun fun h => ?_, fun d hd q hq => ⟨.int n, rfl, hbound d hd q hq⟩, ?_⟩
    · obtain ⟨d, hd, hq⟩ := hattained
      exact h d hd n hq
    · intro m hm
      cases hm
      exact hattained

end

/-! ## What is taken from documents -/

section

variable {f : FieldAgg} {d : TableRow}

theorem metricValue_present {n : Int} (h : fieldCell d.content f.field = .ok (.int n)) :
    metricValue f d = .ok (.int n) := by
  rw [metricValue, h]
  cases f.missing <;> rfl

theorem metricValue_missing (h : fieldCell d.content f.field = .ok .null) :
    metricValue f d = .ok ((f.missing.map fun t => (Literal.ofText t).cell).getD .null) := by
  rw [metricValue, h]
  cases f.missing <;> rfl

/-- From a document without the field the literal given for missing ones is taken. -/
theorem metricValue_given {text : String} (hf : f.missing = some text)
    (h : fieldCell d.content f.field = .ok .null) :
    metricValue f d = .ok (Literal.ofText text).cell := by
  rw [metricValue_missing h, hf]
  rfl

/-- Where an integer stands in for missing ones, an integer is taken from a document: that of its
field, or the one that stands in. -/
theorem metricValue_integer {text : String} {k : Int} (hf : f.missing = some text)
    (hk : Digits.int64Of? text = some k) (h : IntegerOrMissing f.field d) :
    ∃ n, metricValue f d = .ok (.int n) ∧ (fieldCell d.content f.field = .ok (.int n) ∨
      fieldCell d.content f.field = .ok .null ∧ n = k) := by
  rcases h with ⟨n, hn⟩ | hnull
  · exact ⟨n, metricValue_present hn, .inl hn⟩
  · refine ⟨k, ?_, .inr ⟨hnull, rfl⟩⟩
    rw [metricValue_given hf hnull, Literal.ofText, hk]
    rfl

/-- The greatest of a field is taken from a document, and it comes before nothing that is. -/
theorem metricOver_max {ds : List TableRow} {c : Cell} (h : metricOver (.max f) ds = .ok c) :
    (c = .null ∨ ∃ d ∈ ds, metricValue f d = .ok c) ∧
      ∀ d ∈ ds, ∀ x, metricValue f d = .ok x → SortKey.compare (sortKey c) (sortKey x) ≠ .lt := by
  obtain ⟨cells, hcells, rfl⟩ := map_eq_ok.mp h
  have hboth := (traverses_mapM (metricValue f)).ok_iff.mp hcells
  constructor
  · refine (greatest_mem cells).imp_right fun hmem => ?_
    obtain ⟨d, hd, hx⟩ := exists_of_mem_right hboth hmem
    exact ⟨d, hd, hx⟩
  · intro d hd x hx
    obtain ⟨y, hy, hdy⟩ := exists_of_mem_right hboth.flip hd
    cases hx.symm.trans hdy
    exact not_greatest_lt hy

end

/-! ## When the greatest is the maximum -/

section

variable {f : FieldAgg} {missing : Option Number} {ds : List TableRow} {c : Cell}
  (hds : ∀ d ∈ ds, IntegerOrMissing f.field d) (hc : metricOver (.max f) ds = .ok c)

include hc

include hds in
/-- Where only integers are contributed, the greatest is their maximum. -/
theorem isMaximum_of_present (hmissing : ∀ d ∈ ds, fieldCell d.content f.field = .ok .null →
      f.missing = none ∧ missing = none) : IsMaximum f.field missing ds c.toJson := by
  obtain ⟨hmem, hgreatest⟩ := metricOver_max hc
  -- Each document has a value just if it contributes it.
  have hcontributes : ∀ d ∈ ds, ∀ q, Contributes f.field missing d q →
      ∃ n : Int, metricValue f d = .ok (.int n) ∧ q = n := by
    intro d hd q hq
    rcases hds d hd with ⟨n, hn⟩ | hnull
    · exact ⟨n, metricValue_present hn, (contributes_present hn).mp hq⟩
    · obtain ⟨m, hm, -⟩ := (contributes_missing hnull).mp hq
      rw [(hmissing d hd hnull).2] at hm
      cases hm
  by_cases hnull : c = .null
  · rw [hnull] at hgreatest ⊢
    refine isMaximum_null fun d hd q hq => ?_
    obtain ⟨n, hn, -⟩ := hcontributes d hd q hq
    exact hgreatest d hd _ hn rfl
  · obtain ⟨d, hd, hvalue⟩ := hmem.resolve_left hnull
    rcases hds d hd with ⟨n, hn⟩ | hlack
    · cases hvalue.symm.trans (metricValue_present hn)
      refine isMaximum_ofInt.mpr ⟨fun e he q hq => ?_, d, hd, .present hn⟩
      obtain ⟨k, hk, rfl⟩ := hcontributes e he q hq
      have hnot := hgreatest e he _ hk
      rw [Ne, compare_sortKey_int, not_lt] at hnot
      exact_mod_cast hnot
    · rw [metricValue_missing hlack, (hmissing d hd hlack).1] at hvalue
      cases hvalue
      exact absurd rfl hnull

/-- Where an integer is taken from every document, the greatest is one of these integers. -/
theorem exists_greatest_int {d : TableRow} (hd : d ∈ ds)
    (hinteger : ∀ e ∈ ds, ∃ n, metricValue f e = .ok (.int n)) :
    ∃ g : Int, c = .int g ∧ (∃ e ∈ ds, metricValue f e = .ok (.int g)) ∧
      ∀ e ∈ ds, ∀ n, metricValue f e = .ok (.int n) → n ≤ g := by
  obtain ⟨hmem, hgreatest⟩ := metricOver_max hc
  have hne : c ≠ .null := by
    rintro rfl
    obtain ⟨n, hn⟩ := hinteger d hd
    exact hgreatest d hd _ hn rfl
  obtain ⟨e, he, hvalue⟩ := hmem.resolve_left hne
  obtain ⟨g, hg⟩ := hinteger e he
  cases hvalue.symm.trans hg
  refine ⟨g, rfl, ⟨e, he, hg⟩, fun e' he' n hn => ?_⟩
  have hnot := hgreatest e' he' _ hn
  rwa [Ne, compare_sortKey_int, not_lt] at hnot

variable {m : Number} (hm : missing = some m) (hf : f.missing = some m.plainText) {d : TableRow}
  (hd : d ∈ ds) (hlack : fieldCell d.content f.field = .ok .null)

include hm hf hd hlack

/-- A text is greater than all numbers, so that where one stands in for a missing number the greatest
is no number. -/
theorem not_isMaximum_of_text (htext : Digits.int64Of? m.plainText = none) :
    ¬ IsMaximum f.field missing ds c.toJson := by
  intro h
  have hvalue : metricValue f d = .ok (.text m.plainText) := by
    rw [metricValue_given hf hlack, Literal.ofText, htext]
    rfl
  obtain ⟨n, hn, -⟩ := h.bound d hd _ (.missing hlack hm)
  have hnot := (metricOver_max hc).2 d hd _ hvalue
  cases c with
  | null => exact hnot rfl
  | int k => exact hnot rfl
  | float x =>
    refine hnot ?_
    show SortKey.compare (floatKey (.ofFloat x)) _ = .lt
    unfold floatKey
    split <;> rfl
  | text s => cases hn

include hds

/-- Where an integer stands in for a missing number, the greatest is the maximum just if the integer
is that number or both do not matter. -/
theorem isMaximum_iff_of_integer {k : Int} (hk : Digits.int64Of? m.plainText = some k) :
    IsMaximum f.field missing ds c.toJson ↔ m.rational = k ∨
      ∃ d ∈ ds, ∃ n : Int, fieldCell d.content f.field = .ok (.int n) ∧ k ≤ n ∧ m.rational ≤ n := by
  have hinteger := fun e he => metricValue_integer (d := e) hf hk (hds e he)
  obtain ⟨g, rfl, ⟨e, he, hvalue⟩, hle⟩ :=
    exists_greatest_int hc hd fun e he => (hinteger e he).imp fun _ h => h.1
  have hkg : k ≤ g := by
    obtain ⟨n, hn, hcell | ⟨-, rfl⟩⟩ := hinteger d hd
    · cases hlack.symm.trans hcell
    · exact hle d hd _ hn
  -- The greatest is the integer of a document, or the one that stands in.
  obtain ⟨_, hg, hfrom⟩ := hinteger e he
  cases hvalue.symm.trans hg
  rw [show (Cell.int g).toJson = .ofInt g from rfl, isMaximum_ofInt]
  constructor
  · rintro ⟨hbound, e', he', hq⟩
    have hmg : m.rational ≤ g := hbound d hd _ (.missing hlack hm)
    rcases hfrom with hn | ⟨-, rfl⟩
    · exact .inr ⟨e, he, g, hn, hkg, hmg⟩
    · rcases hds e' he' with ⟨n, hn⟩ | hnull
      · have hng : (g : ℚ) = n := (contributes_present hn).mp hq
        exact .inr ⟨e', he', n, hn, by exact_mod_cast hng.le, hng ▸ hmg⟩
      · obtain ⟨m', hm', hgm⟩ := (contributes_missing hnull).mp hq
        cases hm.symm.trans hm'
        exact .inl hgm.symm
  · intro h
    have hmg : m.rational ≤ g := by
      rcases h with hexact | ⟨e', he', n, hn, -, hmn⟩
      · exact hexact.trans_le (by exact_mod_cast hkg)
      · exact hmn.trans (by exact_mod_cast hle e' he' n (metricValue_present hn))
    refine ⟨fun e' he' q hq => ?_, ?_⟩
    · cases hq with
      | @present n hn => exact_mod_cast hle e' he' n (metricValue_present hn)
      | missing _ hm' =>
        cases hm.symm.trans hm'
        exact hmg
    · rcases hfrom with hn | ⟨hnull, rfl⟩
      · exact ⟨e, he, .present hn⟩
      · rcases h with hexact | ⟨e', he', n, hn, hkn, -⟩
        · exact ⟨e, he, (contributes_missing hnull).mpr ⟨m, hm, hexact.symm⟩⟩
        · -- The integer that stands in is the greatest, so a document has it too.
          have hng : n ≤ g := hle e' he' n (metricValue_present hn)
          exact ⟨e', he', le_antisymm hkn hng ▸ .present hn⟩

end

/-- The greatest of a field that has only integers is the maximum of what documents contribute just
if the number that is given stands in for missing ones. -/
theorem isMaximum_iff {f : FieldAgg} {missing : Option Number} {ds : List TableRow} {c : Cell}
    (hf : f.missing = missing.map Number.plainText) (hds : ∀ d ∈ ds, IntegerOrMissing f.field d)
    (hc : metricOver (.max f) ds = .ok c) :
    IsMaximum f.field missing ds c.toJson ↔ StandsIn f.field missing ds := by
  by_cases hcomplete : ∀ d ∈ ds, fieldCell d.content f.field ≠ .ok .null
  · exact iff_of_true (isMaximum_of_present hds hc fun d hd h => absurd h (hcomplete d hd))
      (.complete hcomplete)
  · push Not at hcomplete
    obtain ⟨d, hd, hlack⟩ := hcomplete
    cases missing with
    | none => exact iff_of_true (isMaximum_of_present hds hc fun _ _ _ => ⟨hf, rfl⟩) (.none rfl)
    | some m =>
      rw [standsIn_iff_of_missing hd hlack]
      cases hk : Digits.int64Of? m.plainText with
      | none => exact iff_of_false (not_isMaximum_of_text hc rfl hf hd hlack hk) (by simp)
      | some k =>
        rw [isMaximum_iff_of_integer hds hc rfl hf hd hlack hk]
        simp

/-! ## Maxima of plans -/

/-- What a request gives for missing numbers: nothing, or a number. -/
def givenForMissing : Option Number → Outline
  | none => .null
  | some m => .number m

/-- A number that is given for missing ones is kept as its plain text. -/
theorem missing_eq_of_given {missing : Option Number} {f : FieldAgg}
    (h : optionalScalarText (givenForMissing missing) = .ok f.missing) :
    f.missing = missing.map Number.plainText := by
  cases missing <;> exact (Except.ok.inj h).symm

/-- What the statement for the greatest over all documents gives. -/
structure GivesGreatest (f : FieldAgg) (missing : Option Number) (query : Option Query)
    (tables : Tables.Lookup) (rows : List TableRow) (n : AggregationNode) : Prop where
  total : n.statement.IsAccepted → (∀ d ∈ rows, IsDocument d.content) →
    (∀ a ∈ leaves query, FieldAccepted a.field) →
    FieldAccepted f.field → ∃ result, n.statement.run tables = .ok result
  /-- Its result is the maximum just if the number given stands in for missing ones. -/
  value : ∀ result, n.statement.run tables = .ok result →
    (∀ d ∈ matched query rows, IntegerOrMissing f.field d) →
    ∃ c, result = [[(functionName 0, c)]] ∧
      assemble (.aggregation n) result = .ok (n.label, .metric c.toJson) ∧
      (IsMaximum f.field missing (matched query rows) c.toJson ↔
        StandsIn f.field missing (matched query rows))

/-- What the statement for buckets of a field gives in the column for the greatest over the documents
of a bucket. -/
structure GivesGreatestOfBuckets (f : FieldAgg) (missing : Option Number) (query : Option Query)
    (field : String) (aggs : Named Aggregate) (column : String) (tables : Tables.Lookup)
    (rows : List TableRow) (n : AggregationNode) : Prop where
  total : Supported query field aggs rows n.statement →
    ∃ result, n.statement.run tables = .ok result
  /-- In each bucket whose key is not missing it is the maximum just if the number given stands in
  for missing ones. -/
  value : ∀ result, n.statement.run tables = .ok result → ∀ row ∈ result,
    ∃ k, row.get? (groupName 0) = some k ∧ (k ≠ .null →
      (∀ d ∈ counted query field (sortKey k) rows, IntegerOrMissing f.field d) →
      ∃ c, row.get? column = some c ∧
        (IsMaximum f.field missing (counted query field (sortKey k) rows) c.toJson ↔
          StandsIn f.field missing (counted query field (sortKey k) rows)))

/-- The greatest of a field of integers is their maximum, with the number given for missing ones
counted for each document without the field, just if this number stands in for them. So it is over
all documents that the query asks for, and in each bucket whose key is not missing. -/
theorem compile_maximum {index : String} {r : SearchRequest} {p : Plan}
    (h : compile index r = .ok p) {tables : Tables.Lookup} {rows : List TableRow}
    (hrows : tables index = some rows) {f : FieldAgg} {missing : Option Number}
    (hf : optionalScalarText (givenForMissing missing) = .ok f.missing) :
    (∀ (i : Nat) label a, r.aggs[i]? = some (label, a) → a.kind = .ok (.max f) →
      ∃ n, p.aggregations[i]? = some n ∧ GivesGreatest f missing r.query tables rows n) ∧
    (sameName index outerName = false →
      ∀ (i : Nat) label a kind, r.aggs[i]? = some (label, a) → a.kind = .ok kind →
        kind.type.isBucket = true →
      ∀ (j : Nat) sublabel sub, a.aggs[j]? = some (sublabel, sub) → sub.kind = .ok (.max f) →
        ∃ n, p.aggregations[i]? = some n ∧ GivesGreatestOfBuckets f missing r.query kind.field a.aggs
          (functionName (j + 1)) tables rows n) := by
  have hmissing := missing_eq_of_given hf
  obtain ⟨ps, hplan⟩ := compile_eq_ok.mp h
  constructor
  · intro i label a ha hkind
    obtain ⟨n, hn, hplanned⟩ := getElem?_of_forall₂ hplan.aggregations ha
    obtain ⟨e, he, rfl⟩ := hplanned.exists_metric hkind rfl
    refine ⟨_, hn, fun haccepted hdocuments hquery hfield => ?_, fun result hresult hds => ?_⟩
    · obtain ⟨c, hc⟩ := metricNode_total hplan.predicates hrows hdocuments hquery label he hfield
        haccepted
      exact ⟨_, hc⟩
    · obtain ⟨-, -, c, hc, rfl⟩ := (metricNode_run_eq_ok hplan.predicates hrows he).mp hresult
      refine ⟨c, rfl, ?_, isMaximum_iff hmissing hds hc⟩
      exact map_eq_ok.mpr ⟨_, assemble_metricNode index ps label (.ofKind (.max f)) e c, rfl⟩
  · intro hname i label a kind ha hkind hbucket j sublabel sub hsub hmax
    obtain ⟨n, hn, htotal, hall⟩ := compile_bucketRows h hname hrows ha hkind hbucket
    refine ⟨n, hn, htotal, fun result hresult row hrow => ?_⟩
    obtain ⟨k, hk⟩ := hall result hresult row hrow
    refine ⟨k, hk.key, fun hnull hds => ?_⟩
    obtain ⟨c, hc, hiff⟩ := hk.number j sublabel sub _ hsub hmax
    exact ⟨c, hc, isMaximum_iff hmissing hds (hiff.mpr (.inl hnull))⟩

/-! ## An example -/

/-- A request for the greatest of a field, with a text for missing numbers: of each service, and of
all documents. -/
def greatestRequest (missing : String) : SearchRequest where
  aggs :=
    [("services",
      { terms := some { field := "service" }
        aggs := [("slowest", { max := some { field := "latency", missing := some missing } })] }),
     ("worst", { max := some { field := "latency", missing := some missing } })]

/-- Two documents of a service, of which one is without the field. -/
def greatestRows : List TableRow :=
  [⟨1, "\x7b\"latency\":5,\"service\":\"a\"\x7d"⟩, ⟨2, "\x7b\"service\":\"a\"\x7d"⟩]

/-- An index of these documents, and no other one. -/
def greatestTables : Tables.Lookup := fun name => if name = "logs" then some greatestRows else none

theorem greatestRows_integerOrMissing : ∀ d ∈ greatestRows, IntegerOrMissing "latency" d := by
  intro d hd
  simp only [greatestRows, List.mem_cons, List.not_mem_nil, or_false] at hd
  rcases hd with rfl | rfl
  · exact .inl ⟨5, by decide +kernel⟩
  · exact .inr (by decide +kernel)

/-- With seven for missing numbers the greatest of the example is seven, for all documents and for
the service. -/
theorem compile_maximum_example : ∃ p n n', compile "logs" (greatestRequest "7") = .ok p ∧
    p.aggregations = [n, n'] ∧
    n.statement.run greatestTables =
      .ok [[(groupName 0, .text "a"), (functionName 0, .int 2), (functionName 1, .int 7)]] ∧
    IsMaximum "latency" (some (.int 7)) (counted none "service" (.text "a") greatestRows)
      (.ofInt 7) ∧
    n'.statement.run greatestTables = .ok [[(functionName 0, .int 7)]] ∧
    IsMaximum "latency" (some (.int 7)) (matched none greatestRows) (.ofInt 7) := by
  have hrun : ∃ p n n', compile "logs" (greatestRequest "7") = .ok p ∧ p.aggregations = [n, n'] ∧
      n.statement.run greatestTables =
        .ok [[(groupName 0, .text "a"), (functionName 0, .int 2), (functionName 1, .int 7)]] ∧
      n'.statement.run greatestTables = .ok [[(functionName 0, .int 7)]] :=
    ⟨_, _, _, rfl, rfl, by decide +kernel, by decide +kernel⟩
  obtain ⟨p, n, n', hp, hnodes, hbuckets, hnumber⟩ := hrun
  have hrows : greatestTables "logs" = some greatestRows := rfl
  have hstands := standsIn_int (n := 7) (by decide) "latency"
  have hgiven : optionalScalarText (givenForMissing (some (.int 7))) =
      .ok (FieldAgg.mk "latency" (some "7")).missing := by decide +kernel
  obtain ⟨hworst, hslowest⟩ := compile_maximum hp hrows hgiven
  refine ⟨p, n, n', hp, hnodes, hbuckets, ?_, hnumber, ?_⟩
  · obtain ⟨m, hm, hgives⟩ := hslowest (by decide) 0 _ _ _ rfl rfl rfl 0 _ _ rfl rfl
    rw [hnodes] at hm
    cases hm
    obtain ⟨k, hk, hvalue⟩ := hgives.value _ hbuckets _ (List.mem_singleton_self _)
    cases hk
    obtain ⟨c, hc, hiff⟩ := hvalue nofun fun d hd =>
      greatestRows_integerOrMissing d (List.mem_of_mem_filter hd)
    cases hc
    exact hiff.mpr (hstands _)
  · obtain ⟨m, hm, hgives⟩ := hworst 1 _ _ rfl rfl
    rw [hnodes] at hm
    cases hm
    obtain ⟨c, hresult, -, hiff⟩ := hgives.value _ hnumber fun d hd =>
      greatestRows_integerOrMissing d (List.mem_of_mem_filter hd)
    cases hresult
    exact hiff.mpr (hstands _)

/-- With one and a half for missing numbers it is the text of that, and not five. -/
theorem greatest_of_fraction :
    optionalScalarText (givenForMissing (some (.float 1.5))) = .ok (some "1.5") ∧
    ∃ p n n', compile "logs" (greatestRequest "1.5") = .ok p ∧ p.aggregations = [n, n'] ∧
      n'.statement.run greatestTables = .ok [[(functionName 0, .text "1.5")]] ∧
      ¬ IsMaximum "latency" (some (.float 1.5)) (matched none greatestRows)
        (Cell.text "1.5").toJson ∧
      IsMaximum "latency" (some (.float 1.5)) (matched none greatestRows) (.ofInt 5) := by
  have hpresent : ∃ d ∈ greatestRows, fieldCell d.content "latency" = .ok (.int 5) :=
    ⟨_, List.mem_cons_self, by decide +kernel⟩
  obtain ⟨d, hd, hfive⟩ := hpresent
  have hfraction : (Number.float 1.5).rational = 3 / 2 := by
    have hparts : Binary64.ofFloat 1.5 = .finite false 6755399441055744 (-52) := by
      decide +kernel
    rw [Number.rational, hparts, Binary64.rational, Binary64.signed]
    norm_num
  refine ⟨by decide +kernel, _, _, _, rfl, rfl, by decide +kernel, ?_⟩
  rw [matched_none]
  constructor
  · intro h
    obtain ⟨m, hm, -⟩ := h.bound d hd 5 (.present hfive)
    cases hm
  · refine isMaximum_ofInt.mpr ⟨fun e he q hq => ?_, d, hd, .present hfive⟩
    simp only [greatestRows, List.mem_cons, List.not_mem_nil, or_false] at he
    rcases he with rfl | rfl
    · rw [(contributes_present (n := 5) (by decide +kernel)).mp hq]
    · obtain ⟨m, hm, rfl⟩ := (contributes_missing (by decide +kernel)).mp hq
      cases hm
      rw [hfraction]
      norm_num

end Plan

end Quarry
