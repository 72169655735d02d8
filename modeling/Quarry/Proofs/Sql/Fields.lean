/-
# Fields of kept documents

* `mem_enclose` — the characters of a text in quotation marks.
* `IsFieldName` — the names of fields that are paths as they stand.
* `IsFieldName.path_eq` — the path of such a field is one step.
* `memberOf?_membersOfJson` — a member of an object that was kept is found by its name.
* `fieldCell_text` — the value of the field in a document that was kept.
-/
import Mathlib.Data.List.TakeWhile
import Quarry.Proofs.Json.Kept
import Quarry.Sql.Evaluate

namespace Quarry.Sql

open Quarry.Json Quarry.Result Quarry.Text

/-! ## Quotation marks -/

/-- Marks around a text add no other characters. -/
theorem mem_enclose {mark c : Char} (h : c ≠ mark) {cs : List Char} :
    c ∈ enclose mark cs ↔ c ∈ cs := by
  rw [enclose, List.cons_append, List.mem_cons, List.mem_append, List.mem_flatMap,
    List.mem_singleton]
  constructor
  · rintro (hmark | ⟨d, hd, hc⟩ | hmark)
    · exact absurd hmark h
    · split_ifs at hc
      · simp [h] at hc
      · exact List.mem_singleton.mp hc ▸ hd
    · exact absurd hmark h
  · intro hc
    refine .inr (.inl ⟨c, hc, ?_⟩)
    rw [if_neg h]
    exact List.mem_singleton_self c

/-! ## Paths -/

/-- Whether the name of a field consists of letters and digits of ASCII and of `_`. -/
def IsFieldName (field : String) : Prop :=
  field.toList ≠ [] ∧ ∀ c ∈ field.toList, c.isAlphanum = true ∨ c = '_'

instance (field : String) : Decidable (IsFieldName field) :=
  @instDecidableAnd _ _ inferInstance (List.decidableBAll _ _)

namespace IsFieldName

variable {field : String}

/-- A character of such a name has no meaning in a path. -/
theorem plain (h : IsFieldName field) {c : Char} (hc : c ∈ field.toList) :
    c ≠ '"' ∧ c ≠ '.' ∧ endsName c = false := by
  rcases h.2 c hc with halpha | rfl
  · refine ⟨?_, ?_, ?_⟩
    · rintro rfl
      cases halpha
    · rintro rfl
      cases halpha
    · rw [endsName, Bool.or_eq_false_iff, beq_eq_false_iff_ne, beq_eq_false_iff_ne]
      constructor <;> rintro rfl <;> cases halpha
  · decide

/-- No character of such a name has the code zero. -/
theorem zero_not_mem (h : IsFieldName field) : Char.ofNat 0 ∉ field.toList := fun hzero =>
  absurd (h.2 _ hzero) (by decide)

/-- Nothing is taken off such a name. -/
theorem documentField_eq (h : IsFieldName field) : documentField field = field := by
  have hsuffix : keywordEnding.isSuffixOf field.toList = false := by
    rw [← Bool.not_eq_true, List.isSuffixOf_iff_suffix]
    intro hs
    have hdot : '.' ∈ field.toList := hs.subset List.mem_cons_self
    exact (h.plain hdot).2.1 rfl
  rw [documentField, hsuffix]
  rfl

/-- The path of such a field is one step. -/
theorem path_eq (h : IsFieldName field) :
    Path.ofText (fieldPath field) = ⟨[.member (field.toList.map Char.toNat)], .complete⟩ := by
  obtain ⟨c, cs, hcs⟩ := List.exists_cons_of_ne_nil h.1
  have hchars : (fieldPath field).toList = '$' :: '.' :: field.toList := by
    rw [fieldPath, h.documentField_eq, String.toList_append]
    rfl
  have hname : ∀ d ∈ field.toList, (!endsName d) = true := by
    intro d hd
    rw [(h.plain hd).2.2]
    rfl
  have hfirst : c ≠ '"' := (h.plain (hcs ▸ List.mem_cons_self)).1
  have hwhole : field.toList.takeWhile (fun d => !endsName d) = field.toList := by
    rw [List.takeWhile_eq_self_iff]
    exact hname
  have hnothing : field.toList.dropWhile (fun d => !endsName d) = [] := by
    rw [List.dropWhile_eq_nil_iff]
    exact hname
  have hsteps : Path.ofChars ('.' :: field.toList).length ('.' :: field.toList) =
      ⟨[.member (field.toList.map Char.toNat)], .complete⟩ := by
    rw [hcs] at hwhole hnothing ⊢
    rw [List.length_cons, Path.ofChars]
    · simp only [hwhole, hnothing, List.isEmpty_cons, Bool.false_eq_true, ↓reduceIte]
      rfl
    · intro ds heq
      exact hfirst (List.cons.inj heq).1
  rw [Path.ofText, hchars]
  exact hsteps

end IsFieldName

/-! ## Values -/

/-- The part of a name before a character of code zero, by its codes. -/
theorem beforeZero_map_toNat (cs : List Char) :
    beforeZero (cs.map Char.toNat) = (cs.takeWhile fun c => c.toNat != 0).map Char.toNat :=
  List.takeWhile_map ..

/-- A name that is the part of another one before a character of code zero does not come after it. -/
theorem not_lt_of_beforeZero {name other : String}
    (h : beforeZero (other.toList.map Char.toNat) = name.toList.map Char.toNat) :
    ¬ other < name := by
  rw [beforeZero_map_toNat,
    (List.map_injective_iff.mpr fun _ _ => Char.toNat_inj.mp).eq_iff] at h
  rw [String.lt_iff_toList_lt, ← h]
  exact (List.takeWhile_prefix _).le

/-- A member of a kept object is found by its name: members whose names go on after it with a
character of code zero stand behind it. -/
theorem memberOf?_membersOfJson {name : String} (hzero : Char.ofNat 0 ∉ name.toList)
    {members : Named Json} (h : Named.Ascending members) {v : Json}
    (hget : members.get? name = some v) :
    memberOf? (name.toList.map Char.toNat) (Verbatim.membersOfJson members) =
      some (.ofJson v) := by
  have hself : beforeZero (name.toList.map Char.toNat) = name.toList.map Char.toNat := by
    rw [beforeZero_map_toNat, List.takeWhile_eq_self_iff.mpr]
    intro c hc
    refine bne_iff_ne.mpr fun hcode => hzero ?_
    rwa [← hcode, Char.ofNat_toNat]
  induction members with
  | nil => cases hget
  | cons m rest ih =>
    obtain ⟨other, w⟩ := m
    obtain ⟨hfirst, hrest⟩ := List.pairwise_cons.mp h
    rw [Verbatim.membersOfJson, memberOf?, Verbatim.plainCodes_written, hself]
    rw [Named.get?] at hget
    by_cases hname : name = other
    · rw [if_pos hname] at hget
      cases hget
      rw [← hname, hself, if_pos rfl]
    · rw [if_neg hname] at hget
      have hlt : other < name := hfirst (name, v) (Named.mem_of_get? hget)
      rw [if_neg fun hcodes => not_lt_of_beforeZero hcodes hlt]
      exact ih hrest hget

/-- The value of a field of a document that was kept. -/
theorem fieldCell_text {fields : Named Json} (h : (Json.object fields).Valid)
    (hdeep : (Json.object fields).nesting ≤ Verbatim.nestingLimit) {field : String}
    (hfield : IsFieldName field) {v : Json} (hget : fields.get? field = some v) :
    fieldCell (Json.object fields).text field = .ok (cellOf (.ofJson v)) := by
  have hnames : Named.Ascending fields := by
    cases h with
    | object members hnames hmembers => exact hnames
  have hextract : extract (.ofJson (.object fields)) (Path.ofText (fieldPath field)) =
      some (cellOf (.ofJson v)) := by
    rw [hfield.path_eq, extract]
    simp only [walkSteps, Verbatim.ofJson, PathStep.walk?,
      memberOf?_membersOfJson hfield.zero_not_mem hnames hget]
    rfl
  rw [fieldCell, Verbatim.ofText?_text h.writable, if_pos hdeep]
  simp only [hextract]

end Quarry.Sql
