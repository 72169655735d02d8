/-
# Rows that statements find

* `fieldCell_total` — a field has a value in every document, whatever is in it.
* `sortKey_eq_null` — only a missing value has the key of missing values.
* `isTrue_compareCells` — a comparison counts as true when no value is missing and it holds.
* `filterRows_eq_ok` — the rows found are those of which all predicates count as true.
-/
import Quarry.Proofs.Outcome
import Quarry.Proofs.Sql.Rounding
import Quarry.Sql.Evaluate

namespace Quarry.Sql

open Quarry.Decimal Quarry.Json Quarry.Outcome Quarry.Result

/-! ## Values of fields -/

/-- The path of a field has no mistakes. -/
def FieldAccepted (field : String) : Prop := (Path.ofText (fieldPath field)).ending = .complete

/-- A text is a JSON document. -/
def IsDocument (content : String) : Prop := (Verbatim.ofText? content).isSome = true

theorem walkSteps_total (steps : List PathStep) (v : Verbatim) :
    ∃ w, walkSteps steps .complete v = some w := by
  induction steps generalizing v with
  | nil => exact ⟨some v, rfl⟩
  | cons s rest ih =>
    rw [walkSteps]
    cases s.walk? v with
    | none => exact ⟨none, rfl⟩
    | some w => exact ih w

/-- A field without mistakes in its path has a value in every document. -/
theorem fieldCell_total {content field : String} (hc : IsDocument content)
    (hf : FieldAccepted field) : ∃ c, fieldCell content field = .ok c := by
  obtain ⟨v, hv⟩ := Option.isSome_iff_exists.mp hc
  obtain ⟨w, hw⟩ := walkSteps_total (Path.ofText (fieldPath field)).steps v
  refine ⟨(w.map cellOf).getD .null, ?_⟩
  rw [fieldCell, hv]
  simp only
  rw [extract, hf, hw]
  rfl

/-- A value is no undefined number. -/
def CellDefined (c : Cell) : Prop := ∀ x, c = .float x → x.isNaN = false

theorem cellDefined_cellOf (v : Verbatim) : CellDefined (cellOf v) := by
  intro x hx
  cases v with
  | number n =>
    have hn : numberCell n = .float x := hx
    unfold numberCell at hn
    have hfloat : ∀ y, Cell.float y = .float x → y = n.approximate → x.isNaN = false := by
      intro y hy happroximate
      cases hy
      rw [happroximate]
      exact n.isNaN_approximate
    split at hn
    · split at hn
      · cases hn
      · exact hfloat _ hn rfl
    · exact hfloat _ hn rfl
  | null => cases hx
  | bool b => cases hx
  | string s => cases hx
  | array items => cases hx
  | object members => cases hx

/-- The value of a field is no undefined number. -/
theorem cellDefined_fieldCell {content field : String} {c : Cell}
    (h : fieldCell content field = .ok c) : CellDefined c := by
  unfold fieldCell at h
  split at h
  · cases h
  · split at h
    · next v _ d hd =>
      cases h
      obtain ⟨w, -, rfl⟩ := Option.map_eq_some_iff.mp hd
      cases w with
      | none => exact nofun
      | some w => exact cellDefined_cellOf w
    · cases h

/-! ## Keys -/

/-- Only a missing value has the key of missing values. -/
theorem sortKey_eq_null {c : Cell} (h : CellDefined c) : sortKey c = .null ↔ c = .null := by
  cases c with
  | null => exact ⟨fun _ => rfl, fun _ => rfl⟩
  | int n => exact ⟨nofun, nofun⟩
  | text s => exact ⟨nofun, nofun⟩
  | float x =>
    refine ⟨fun hkey => ?_, nofun⟩
    -- Only the parts of an undefined number have the key of missing values.
    have hnan : Binary64.ofFloat x ≠ .nan := by
      rw [Ne, ofFloat_eq_nan, h x rfl]
      exact Bool.false_ne_true
    revert hkey
    show floatKey (.ofFloat x) = .null → _
    cases hx : Binary64.ofFloat x with
    | nan => exact absurd hx hnan
    | infinite negative => exact nofun
    | finite negative m e => exact nofun

theorem isMissing_eq_true {c : Cell} : isMissing c = true ↔ c = .null := by
  cases c <;> simp [isMissing]

/-- Keys stand level when they are equal. -/
theorem compare_eq_eq {a b : SortKey} : SortKey.compare a b = .eq ↔ a = b := by
  cases a <;> cases b <;> simp [SortKey.compare]

/-- A comparison counts as true when no value is missing and it holds. -/
theorem isTrue_compareCells {op : Comparison} {a b : Cell} :
    isTrue (compareCells op a b) = true ↔
      a ≠ .null ∧ b ≠ .null ∧ op.holds (SortKey.compare (sortKey a) (sortKey b)) = true := by
  unfold compareCells
  by_cases hmissing : (isMissing a || isMissing b) = true
  · rw [if_pos hmissing]
    rw [Bool.or_eq_true, isMissing_eq_true, isMissing_eq_true] at hmissing
    refine ⟨nofun, ?_⟩
    rintro ⟨ha, hb, -⟩
    exact absurd hmissing (not_or.mpr ⟨ha, hb⟩)
  · rw [if_neg hmissing]
    rw [Bool.or_eq_true, isMissing_eq_true, isMissing_eq_true, not_or] at hmissing
    by_cases hholds : op.holds (SortKey.compare (sortKey a) (sortKey b)) = true
    · simp [hholds, hmissing, isTrue]
    · simp [hholds, isTrue]

/-! ## Predicates -/

/-- Predicates hold of the rows in scope when each counts as true. -/
theorem holdsAll_eq_true {scope : Scope} {ps : List Expr} :
    holdsAll scope ps = .ok true ↔ ∀ p ∈ ps, ∃ c, p.eval scope = .ok c ∧ isTrue c = true := by
  induction ps with
  | nil => simp [holdsAll]
  | cons p rest ih =>
    rw [List.forall_mem_cons, ← ih, holdsAll, bind_eq_ok]
    constructor
    · rintro ⟨c, hc, h⟩
      by_cases htrue : isTrue c = true
      · rw [if_pos htrue] at h
        exact ⟨⟨c, hc, htrue⟩, h⟩
      · rw [if_neg htrue] at h
        cases h
    · rintro ⟨⟨c, hc, htrue⟩, hrest⟩
      refine ⟨c, hc, ?_⟩
      rw [if_pos htrue]
      exact hrest

/-- Predicates that have values can be tested. -/
theorem holdsAll_total {scope : Scope} {ps : List Expr}
    (h : ∀ p ∈ ps, ∃ c, p.eval scope = .ok c) : ∃ b, holdsAll scope ps = .ok b := by
  induction ps with
  | nil => exact ⟨true, rfl⟩
  | cons p rest ih =>
    obtain ⟨hp, hrest⟩ := List.forall_mem_cons.mp h
    obtain ⟨c, hc⟩ := hp
    obtain ⟨b, hb⟩ := ih hrest
    by_cases htrue : isTrue c = true
    · refine ⟨b, bind_eq_ok.mpr ⟨c, hc, ?_⟩⟩
      rw [if_pos htrue]
      exact hb
    · refine ⟨false, bind_eq_ok.mpr ⟨c, hc, ?_⟩⟩
      rw [if_neg htrue]
      rfl

/-- Predicates that stand for conditions can be tested, and hold when all conditions do. -/
theorem holdsAll_of_forall₂ {α : Type} {P : α → Prop} {scope : Scope} {as : List α}
    {ps : List Expr}
    (h : List.Forall₂ (fun a p => ∃ c, p.eval scope = .ok c ∧ (isTrue c = true ↔ P a)) as ps) :
    ∃ b, holdsAll scope ps = .ok b ∧ (b = true ↔ ∀ a ∈ as, P a) := by
  induction h with
  | nil => exact ⟨true, rfl, by simp⟩
  | cons hp _ ih =>
    obtain ⟨c, hc, hiff⟩ := hp
    obtain ⟨b, hb, hrest⟩ := ih
    rw [holdsAll, hc]
    show ∃ b, (if isTrue c then holdsAll scope _ else .ok false) = .ok b ∧ _
    rw [List.forall_mem_cons, ← hiff]
    by_cases htrue : isTrue c = true
    · rw [if_pos htrue]
      exact ⟨b, hb, by simp [htrue, hrest]⟩
    · rw [if_neg htrue]
      exact ⟨false, rfl, by simp [htrue]⟩

/-! ## Rows found -/

/-- The rows of a statement are those of its table, known by the name of the statement for it. -/
theorem sourceRows_eq_ok {tables : Tables.Lookup} {s : Source} {rows : List TableRow}
    (h : tables s.table = some rows) : sourceRows tables (some s) = .ok (s.knownAs, rows) := by
  simp only [sourceRows, h]

/-- Whether predicates can be tested on the rows in scope and hold of them. -/
def passes (ps : List Expr) (scope : Scope) : Bool := holdsAll scope ps matches .ok true

theorem passes_iff {ps : List Expr} {scope : Scope} :
    passes ps scope = true ↔ holdsAll scope ps = .ok true := by
  unfold passes
  split
  · next h => simp [h]
  · next h => simpa using h

section

variable (name : String) (outer : Scope) (ps : List Expr)

/-- The rows of which predicates hold, each in its scope. -/
def found (rows : List TableRow) : List Scope :=
  (rows.filter fun r => passes ps (⟨name, r⟩ :: outer)).map fun r => ⟨name, r⟩ :: outer

theorem found_cons (r : TableRow) (rest : List TableRow) :
    found name outer ps (r :: rest) =
      if passes ps (⟨name, r⟩ :: outer) then (⟨name, r⟩ :: outer) :: found name outer ps rest
      else found name outer ps rest := by
  unfold found
  rw [List.filter_cons]
  split <;> rfl

end

/-- The rows found are those of which the predicates hold, in their order. All rows are tested. -/
theorem filterRows_eq_ok {name : String} {outer : Scope} {ps : List Expr} {rows : List TableRow}
    {scopes : List Scope} :
    filterRows name outer ps rows = .ok scopes ↔
      (∀ r ∈ rows, ∃ b, holdsAll (⟨name, r⟩ :: outer) ps = .ok b) ∧
        scopes = found name outer ps rows := by
  induction rows generalizing scopes with
  | nil =>
    rw [filterRows]
    simp [found, eq_comm]
  | cons r rest ih =>
    -- A row that is left out is tested all the same, and an error in its test is one of the whole.
    have hpasses : ∀ keep, holdsAll (⟨name, r⟩ :: outer) ps = .ok keep →
        passes ps (⟨name, r⟩ :: outer) = keep := by
      intro keep hkeep
      cases keep <;> simp [passes, hkeep]
    rw [filterRows, bind_eq_ok, List.forall_mem_cons, found_cons]
    constructor
    · rintro ⟨keep, hkeep, h⟩
      obtain ⟨others, hothers, h⟩ := bind_eq_ok.mp h
      obtain ⟨htested, rfl⟩ := ih.mp hothers
      rw [hpasses keep hkeep]
      cases h
      exact ⟨⟨⟨keep, hkeep⟩, htested⟩, rfl⟩
    · rintro ⟨⟨⟨keep, hkeep⟩, htested⟩, rfl⟩
      rw [hpasses keep hkeep]
      exact ⟨keep, hkeep, bind_eq_ok.mpr ⟨_, ih.mpr ⟨htested, rfl⟩, rfl⟩⟩

end Quarry.Sql
