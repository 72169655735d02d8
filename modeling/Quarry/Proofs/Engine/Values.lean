/-
# Searches for the value of a field

Whether a query for the value that a field has finds the document.

* `IsScalar` — the values that such a query may name. `valueQuery` — the query.
* `Finds` — a predicate can stand in a statement, and holds of a row.
* `IsFound` — the values that are found.
* `finds_value` — the documents of an index are found by the values of their fields that are so.
-/
import Quarry.Proofs.Engine.Runs
import Quarry.Proofs.Sql.Fields
import Quarry.Proofs.Sql.Rows

namespace Quarry.Engine

open Quarry.Engine.Program (World)
open Quarry.Decimal Quarry.Json Quarry.Outcome Quarry.Plan Quarry.Request Quarry.Result Quarry.Sql
open Quarry.Store Quarry.Template Quarry.Text

/-! ## Queries -/

/-- Whether a value is a string, a number or a truth value. -/
def IsScalar : Json → Prop
  | .bool _ | .number _ | .string _ => True
  | _ => False

/-- A query of a kind for a value of a field. -/
def valueQuery (kind field : String) (v : Json) : Json := .object [(kind, .object [(field, v)])]

/-- An object of one member gives a record of one field, if no others are required. -/
theorem decode_single {ρ : Type} {r : Record ρ} {name : String} {o : Outline} {a : ρ}
    (hfield : r.fields.contains name = true) (hrequired : r.required = [])
    (hset : r.set name o r.start = .ok a) :
    r.decode (.object [(.ok name, o)] .complete) = .ok a := by
  show (if r.fields.contains name then _ else _ : Except DecodeError ρ) = _
  rw [if_pos hfield]
  show (r.set name o r.start >>= fun a => r.ofMembers a [name] [] .complete) = _
  rw [hset]
  show (Record.checkRequired [name] r.required >>= fun _ => .ok a) = _
  rw [hrequired]
  rfl

/-- A mapping of one member gives one named thing. -/
theorem namedOf_single {α : Type} {d : Decoder α} {name : String} {o : Outline} {a : α}
    (h : d o = .ok a) :
    Decoder.namedOf d (.object [(.ok name, o)] .complete) = .ok [(name, a)] := by
  show (d o >>= fun a => Decoder.members d (Named.insert name a []) [] .complete) = _
  rw [h]
  rfl

/-- A query for a value asks whether the field equals the text of the value. -/
theorem decode_valueQuery {kind : String} (hkind : kind = "term" ∨ kind = "match") (field : String)
    {v : Json} {text : String} (htext : scalarText? (.ofJson v) = some text) :
    ∃ q, decodeValue Query.decode (valueQuery kind field v) = .ok q ∧
      predicates (some q) = .ok [equality field text] := by
  rcases hkind with rfl | rfl
  · refine ⟨{ term := some [(field, { value := text })] }, ?_, rfl⟩
    have hterm : TermValue.decode (.ofJson v) = .ok { value := text } := by
      rw [TermValue.decode, shorthand, htext]
    refine decode_single rfl rfl ?_
    show (Except.map some (Decoder.namedOf TermValue.decode
      (.object [(.ok field, .ofJson v)] .complete))).map _ = _
    rw [namedOf_single hterm]
    rfl
  · refine ⟨{ matching := some [(field, { query := text })] }, ?_, rfl⟩
    have hmatch : MatchValue.decode (.ofJson v) = .ok { query := text } := by
      rw [MatchValue.decode, shorthand, htext]
    refine decode_single rfl rfl ?_
    show (Except.map some (Decoder.namedOf MatchValue.decode
      (.object [(.ok field, .ofJson v)] .complete))).map _ = _
    rw [namedOf_single hmatch]
    rfl

/-! ## Values -/

/-- The values that are found where they are: texts that do not write a 64-bit integer, 64-bit
integers, and floats whose plain text is a 64-bit integer which floats hold. -/
def IsFound : Json → Prop
  | .string s => Digits.int64Of? s = none ∧ Char.ofNat 0 ∉ s.toList
  | .number (.int n) => Digits.fitsInt64 n = true
  | .number (.float x) =>
    ∃ n, Digits.int64Of? (plain.render x) = some n ∧ Binary64.Holds n
  | _ => False

/-- A predicate can stand in a statement, and holds of a row. -/
def Finds (p : Expr) (index : String) (row : TableRow) : Prop :=
  Char.ofNat 0 ∉ p.sql.toList ∧ holdsAll [⟨index, row⟩] [p] = .ok true

/-- The key of the constant that a text stands for. -/
def constantKey (text : String) : SortKey :=
  match Digits.int64Of? text with
  | some n => .number (n * unitsOfOne)
  | none => .text text

/-- What is kept of a value equals a constant when the keys are the same. -/
theorem isTrue_equality {c : Cell} (text : String) :
    isTrue (compareCells .eq c (Literal.ofText text).cell) = true ↔
      c ≠ .null ∧ sortKey c = constantKey text := by
  have hconstant : (Literal.ofText text).cell ≠ .null ∧
      sortKey (Literal.ofText text).cell = constantKey text := by
    unfold Literal.ofText constantKey
    cases Digits.int64Of? text with
    | none => exact ⟨nofun, rfl⟩
    | some n => exact ⟨nofun, rfl⟩
  rw [isTrue_compareCells, hconstant.2, ← compare_eq_eq]
  simp [hconstant.1, Comparison.holds]

theorem zero_mem_stringLiteral (s : String) :
    Char.ofNat 0 ∈ (stringLiteral s).toList ↔ Char.ofNat 0 ∈ s.toList := by
  rw [stringLiteral, String.toList_ofList, mem_enclose (by decide)]

/-- The text of an integer has no character of code zero. -/
theorem zero_not_mem_ofInt (n : Int) : Char.ofNat 0 ∉ (Digits.ofInt n).toList := by
  rw [Digits.toList_ofInt, List.mem_append, not_or]
  refine ⟨?_, fun h => absurd (Digits.isDigit_of_mem_chars h) (by decide)⟩
  split_ifs <;> decide

/-- Characters of code zero come into a comparison from a text that is no integer. -/
theorem zero_mem_equality {field : String} (hfield : IsFieldName field) (text : String) :
    Char.ofNat 0 ∈ (equality field text).sql.toList ↔
      Digits.int64Of? text = none ∧ Char.ofNat 0 ∈ text.toList := by
  have hpath : Char.ofNat 0 ∉ (fieldSql none field).toList := by
    have hpath : Char.ofNat 0 ∉ (fieldPath field).toList := by
      rw [fieldPath, hfield.documentField_eq, String.toList_append, List.mem_append, not_or]
      exact ⟨by decide, hfield.zero_not_mem⟩
    show Char.ofNat 0 ∉ ("JSON_EXTRACT(content, " ++ stringLiteral (fieldPath field) ++ ")").toList
    rw [String.toList_append, String.toList_append, List.mem_append, List.mem_append,
      zero_mem_stringLiteral, not_or, not_or]
    exact ⟨⟨by decide, hpath⟩, by decide⟩
  have hconstant : Char.ofNat 0 ∈ (Literal.ofText text).sql.toList ↔
      Digits.int64Of? text = none ∧ Char.ofNat 0 ∈ text.toList := by
    unfold Literal.ofText
    cases Digits.int64Of? text with
    | none =>
      rw [Literal.sql, zero_mem_stringLiteral]
      exact (and_iff_right rfl).symm
    | some n =>
      rw [Literal.sql]
      exact ⟨fun h => absurd h (zero_not_mem_ofInt n), fun h => absurd h.1 (Option.some_ne_none n)⟩
  show Char.ofNat 0 ∈ (fieldSql none field ++ " " ++ "=" ++ " " ++ (Literal.ofText text).sql).toList ↔
    _
  have hsign : Char.ofNat 0 ∉ " ".toList ∧ Char.ofNat 0 ∉ "=".toList := by decide
  rw [← hconstant]
  simp only [String.toList_append, List.mem_append, hpath, hsign.1, hsign.2, false_or]

theorem floatKey_ne_text (x : Binary64) (s : String) : floatKey x ≠ .text s := by
  cases x <;> exact nofun

/-- The texts of truth values are no integers. -/
theorem int64Of?_bool (b : Bool) :
    Digits.int64Of? (if b then "true" else "false") = none := by
  cases b <;> decide

/-- The values that are found are those that equal the constant of their text, if this constant can
stand in a statement. -/
theorem isFound_iff {v : Json} (hv : v.Valid) {text : String}
    (htext : scalarText? (.ofJson v) = some text) :
    IsFound v ↔ ¬ (Digits.int64Of? text = none ∧ Char.ofNat 0 ∈ text.toList) ∧
      cellOf (.ofJson v) ≠ .null ∧ sortKey (cellOf (.ofJson v)) = constantKey text := by
  cases hv with
  | null => cases htext
  | array items h => cases htext
  | object members hnames h => cases htext
  | bool b =>
    obtain rfl := Option.some.inj htext
    rw [constantKey, int64Of?_bool]
    exact ⟨False.elim, fun h => nomatch h.2.2⟩
  | string s =>
    obtain rfl := Option.some.inj htext
    have hcell : cellOf (.ofJson (.string s)) = .text s := by
      show Cell.text _ = _
      rw [Verbatim.plainChars_written, String.ofList_toList]
    rw [hcell, IsFound, constantKey]
    cases Digits.int64Of? s with
    | none => simp [sortKey]
    | some n => simp [sortKey]
  | int n h =>
    obtain rfl := Option.some.inj htext
    have hcell : cellOf (.ofJson (.number (.int n))) = numberCell (Numeral.ofInt n) := rfl
    have hwhole : (Numeral.ofInt n).isWhole = true := rfl
    have hinteger := Digits.int64Of?_ofInt n
    have hzero := zero_not_mem_ofInt n
    show Digits.fitsInt64 n = true ↔ ¬ (Digits.int64Of? (Digits.ofInt n) = none ∧
      Char.ofNat 0 ∈ (Digits.ofInt n).toList) ∧ _ ∧ _ = constantKey (Digits.ofInt n)
    rw [hcell, numberCell, if_pos hwhole, Numeral.text_ofInt, constantKey]
    by_cases hfits : Digits.fitsInt64 n = true
    · rw [if_pos hfits] at hinteger
      simp [hfits, hinteger, sortKey]
    · rw [if_neg hfits] at hinteger
      simp [hfits, hinteger, sortKey, floatKey_ne_text]
  | float x h =>
    obtain rfl := Option.some.inj htext
    have hcell : cellOf (.ofJson (.number (.float x))) = .float (Numeral.ofFloat x).approximate := by
      show numberCell (Numeral.ofFloat x) = _
      rw [numberCell, Numeral.isWhole_ofFloat h]
      rfl
    rw [hcell, IsFound]
    show _ ↔ ¬ (Digits.int64Of? (plain.render x) = none ∧ _) ∧ _ ∧ _ = constantKey (plain.render x)
    rw [constantKey]
    cases hinteger : Digits.int64Of? (plain.render x) with
    | none => simp [sortKey, floatKey_ne_text]
    | some n => simp [sortKey, floatKey_approximate_iff h hinteger]

/-- A query for a value of a field finds the documents of an index whose field has the value, if
the value is one that is found. -/
theorem finds_value {field : String} (hfield : IsFieldName field) {v : Json} (hscalar : IsScalar v)
    {kind : String} (hkind : kind = "term" ∨ kind = "match") :
    ∃ q p, decodeValue Query.decode (valueQuery kind field v) = .ok q ∧
      predicates (some q) = .ok [p] ∧
      ∀ {fields : Named Json}, (Json.object fields).Valid → fields.get? field = some v →
      ∀ {index : String} {w w' : World Tables} {id : Int}, w.registry.lookup index = none →
        onTables (indexDocument index (.object fields)) w = (.ok id, w') →
        ∃ rows row, w'.store.rows? index = some (rows ++ [row]) ∧ id = row.id ∧
          (Finds p index row ↔ IsFound v) := by
  obtain ⟨text, htext⟩ : ∃ text, scalarText? (.ofJson v) = some text := by
    cases v <;> first | exact ⟨_, rfl⟩ | cases hscalar
  obtain ⟨q, hq, hp⟩ := decode_valueQuery hkind field htext
  refine ⟨q, _, hq, hp, ?_⟩
  intro fields hvalid hget index w w' id hlookup hindexed
  obtain ⟨made, w₁, stored, n, t, hmade, hstored, hinsert, hid, rfl⟩ :=
    exists_of_indexDocument hindexed
  rw [registry_of_created hmade, hlookup] at hstored
  obtain rfl : stored = .object fields := (Except.ok.inj hstored).symm
  obtain ⟨rows, kept, hkept, hrows⟩ := rows?_of_insert hinsert
  obtain ⟨hdeep, hcontent⟩ := Verbatim.of_ofText?_text hvalid hkept
  refine ⟨rows, _, hrows, hid, ?_⟩
  have hcell : fieldCell kept.text field = .ok (cellOf (.ofJson v)) := by
    rw [hcontent, fieldCell_text hvalid hdeep hfield hget]
  have hv : v.Valid := by
    cases hvalid with
    | object members hnames hmembers => exact hmembers _ (Named.mem_of_get? hget)
  have heval : (equality field text).eval [⟨index, ⟨n, kept.text⟩⟩] =
      .ok (compareCells .eq (cellOf (.ofJson v)) (Literal.ofText text).cell) := by
    show (fieldCell kept.text field >>= fun a => _) = _
    rw [hcell]
    rfl
  have hone : holdsAll [⟨index, ⟨n, kept.text⟩⟩] [equality field text] = .ok true ↔
      isTrue (compareCells .eq (cellOf (.ofJson v)) (Literal.ofText text).cell) = true := by
    rw [holdsAll_eq_true, List.forall_mem_singleton, heval]
    simp
  rw [Finds, zero_mem_equality hfield, hone, isTrue_equality, isFound_iff hv htext]

/-- A visit with a rating. -/
def rated (v : Json) : Json := .object [("rating", v)]

/-- A rating that is a whole float is found. -/
theorem finds_value_example :
    IsFieldName "rating" ∧ IsFound (.number (.float 4.0)) ∧
    ∃ q p, decodeValue Query.decode (valueQuery "term" "rating" (.number (.float 4.0))) = .ok q ∧
      predicates (some q) = .ok [p] ∧
      ∃ rows row, (onTables (indexDocument "visits" (rated (.number (.float 4.0))))
        { store := {} }).2.store.rows? "visits" = some (rows ++ [row]) ∧ Finds p "visits" row := by
  have hfield : IsFieldName "rating" := by decide
  have hfound : IsFound (.number (.float 4.0)) :=
    ⟨4, by decide +kernel, 4, 0, by decide, rfl⟩
  have hvalid : (rated (.number (.float 4.0))).Valid := by
    refine .object _ (by decide) fun m hm => ?_
    rw [List.mem_singleton.mp hm]
    exact .float 4.0 (by decide +kernel)
  have hindexed : (onTables (indexDocument "visits" (rated (.number (.float 4.0))))
      { store := {} }).1 = .ok 1 := by decide +kernel
  obtain ⟨q, p, hq, hp, hfinds⟩ := finds_value hfield (v := .number (.float 4.0)) trivial (.inl rfl)
  obtain ⟨rows, row, hrows, -, hrow⟩ := hfinds hvalid rfl (w := { store := {} }) rfl
    (Prod.ext hindexed rfl)
  exact ⟨hfield, hfound, q, p, hq, hp, rows, row, hrows, hrow.mpr hfound⟩

/-- A visit is kept with a rating, and a query for this rating does not hold of it. -/
def MissesRating (v : Json) : Prop :=
  ∃ q p, decodeValue Query.decode (valueQuery "term" "rating" v) = .ok q ∧
    predicates (some q) = .ok [p] ∧
    (onTables (indexDocument "visits" (rated v)) { store := {} }).2.store.rows? "visits" =
      some [⟨1, (rated v).text⟩] ∧
    holdsAll [⟨"visits", ⟨1, (rated v).text⟩⟩] [p] = .ok false

/-- A rating that is the text of an integer is not found, and neither is a truth value. -/
theorem not_finds_value : MissesRating (.string "4") ∧ MissesRating (.bool true) := by
  constructor
  · obtain ⟨q, hq, hp⟩ := decode_valueQuery (.inl rfl) "rating" (v := .string "4") rfl
    exact ⟨q, _, hq, hp, by decide +kernel, by decide +kernel⟩
  · obtain ⟨q, hq, hp⟩ := decode_valueQuery (.inl rfl) "rating" (v := .bool true) rfl
    exact ⟨q, _, hq, hp, by decide +kernel, by decide +kernel⟩

end Quarry.Engine
