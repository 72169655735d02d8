/-
# Documents are converted field by field

Conversion goes through the dates that a mapping names and changes each by itself; nothing else in a
document is touched.

* `convertFields_eq_ok` — what stands under each name after conversion; `convertFields_error` — whose
  error it is otherwise. `convertFields_perm` — in which order fields are visited has no effect.
* `Converts` — what the conversion of a single value is, `converts_writeField` and
  `converts_readField` for the two directions.
* `ConvertsDates` — when the conversion of a document fails, and what it gives otherwise.
* `document_convertsDates` — so it is in both directions.
-/
import Quarry.Document
import Quarry.Proofs.Json.Named
import Quarry.Proofs.Outcome

namespace Quarry

open Quarry.Date Quarry.Outcome Quarry.Template

/-! ## Field by field -/

section

variable {convert : String → DateFormat → Json → Except FormatError Json}

/-- What becomes of what stands under a name, if the name has a format. -/
def convertValue (convert : String → DateFormat → Json → Except FormatError Json) (name : String)
    (format : Option DateFormat) (v : Option Json) : Except FormatError (Option Json) :=
  match format, v with
  | none, v => .ok v
  | some _, none => .ok none
  | some _, some .null => .ok (some .null)
  | some format, some v => (convert name format v).map some

/-- A field that is absent or `null` stays so. -/
theorem convertValue_of_blank {v : Option Json} (h : v = none ∨ v = some .null) (name : String)
    (format : Option DateFormat) : convertValue convert name format v = .ok v := by
  cases format with
  | none => rfl
  | some format =>
    rcases h with rfl | rfl <;> rfl

/-- Any other field with a format is converted. -/
theorem convertValue_of_ne_null {v : Json} (h : v ≠ .null) (name : String) (format : DateFormat) :
    convertValue convert name (some format) (some v) = (convert name format v).map some := by
  cases v with
  | null => exact absurd rfl h
  | _ => rfl

variable {formats : Named DateFormat} {fields out : Named Json}

/-- Conversion keeps the order of names, and does under each name what the format of the name says,
whatever the order of the formats. -/
theorem get?_of_convertFields (hformats : (formats.map Prod.fst).Nodup)
    (hfields : Named.Ascending fields) (h : convertFields convert formats fields = .ok out) :
    Named.Ascending out ∧ ∀ name, convertValue convert name (formats.get? name)
      (fields.get? name) = .ok (out.get? name) := by
  induction formats generalizing fields with
  | nil =>
    cases h
    exact ⟨hfields, fun name => rfl⟩
  | cons entry rest ih =>
    obtain ⟨first, format⟩ := entry
    obtain ⟨hfirst, hrest⟩ := List.nodup_cons.mp hformats
    have hlater : Named.get? first rest = none := Named.get?_eq_none hfirst
    -- A field that is left alone has no format among the rest either.
    have hblank : fields.get? first = none ∨ fields.get? first = some .null →
        convertFields convert rest fields = .ok out → Named.Ascending out ∧
          ∀ name, convertValue convert name (Named.get? name ((first, format) :: rest))
            (fields.get? name) = .ok (out.get? name) := by
      intro hv hok
      obtain ⟨hout, hall⟩ := ih hrest hfields hok
      refine ⟨hout, fun name => ?_⟩
      by_cases hname : name = first
      · have hsame := hall first
        rw [convertValue_of_blank hv] at hsame
        rw [hname, convertValue_of_blank hv, hsame]
      · rw [Named.get?, if_neg hname]
        exact hall name
    unfold convertFields at h
    split at h
    · next hv => exact hblank (.inl hv) h
    · next hv => exact hblank (.inr hv) h
    · next v hnull hv =>
      obtain ⟨w, hw, hok⟩ := bind_eq_ok.mp h
      obtain ⟨hout, hall⟩ := ih hrest (Named.ascending_insert hfields first w) hok
      refine ⟨hout, fun name => ?_⟩
      by_cases hname : name = first
      · subst hname
        have hsame := hall name
        rw [hlater, Named.get?_insert_self] at hsame
        rw [Named.get?, if_pos rfl, hv, convertValue_of_ne_null hnull, ← hsame]
        exact map_eq_ok.mpr ⟨w, hw, rfl⟩
      · have hother := hall name
        rw [Named.get?_insert_of_ne hname] at hother
        rw [Named.get?, if_neg hname]
        exact hother

/-- If conversion fails, it is because of one of the fields. -/
theorem exists_of_convertFields_error {e : FormatError} (hformats : (formats.map Prod.fst).Nodup)
    (h : convertFields convert formats fields = .error e) :
    ∃ name, convertValue convert name (formats.get? name) (fields.get? name) = .error e := by
  induction formats generalizing fields with
  | nil => cases h
  | cons entry rest ih =>
    obtain ⟨first, format⟩ := entry
    obtain ⟨hfirst, hrest⟩ := List.nodup_cons.mp hformats
    have hlater : Named.get? first rest = none := Named.get?_eq_none hfirst
    -- An error among the rest is that of another field.
    have hother : ∀ name, convertValue convert name (Named.get? name rest) (fields.get? name) =
        .error e → ∃ name, convertValue convert name (Named.get? name ((first, format) :: rest))
          (fields.get? name) = .error e := by
      intro name hname
      refine ⟨name, ?_⟩
      rw [Named.get?, if_neg]
      · exact hname
      · rintro rfl
        rw [hlater] at hname
        cases hname
    unfold convertFields at h
    split at h
    · obtain ⟨name, hname⟩ := ih hrest h
      exact hother name hname
    · obtain ⟨name, hname⟩ := ih hrest h
      exact hother name hname
    · next v hnull hv =>
      rcases bind_eq_error.mp h with hw | ⟨w, -, hlast⟩
      · refine ⟨first, ?_⟩
        rw [Named.get?, if_pos rfl, hv, convertValue_of_ne_null hnull, hw]
        rfl
      · obtain ⟨name, hname⟩ := ih hrest hlast
        by_cases hsame : name = first
        · subst hsame
          rw [hlater] at hname
          cases hname
        · rw [Named.get?_insert_of_ne hsame] at hname
          exact hother name hname

/-- Conversion gives some fields just if each of them is what its format says. -/
theorem convertFields_eq_ok (hformats : (formats.map Prod.fst).Nodup)
    (hfields : Named.Ascending fields) :
    convertFields convert formats fields = .ok out ↔ Named.Ascending out ∧
      ∀ name, convertValue convert name (formats.get? name) (fields.get? name) =
        .ok (out.get? name) := by
  refine ⟨get?_of_convertFields hformats hfields, fun ⟨hout, hall⟩ => ?_⟩
  cases h : convertFields convert formats fields with
  | error e =>
    obtain ⟨name, hname⟩ := exists_of_convertFields_error hformats h
    cases (hall name).symm.trans hname
  | ok found =>
    obtain ⟨hfound, heach⟩ := get?_of_convertFields hformats hfields h
    refine congrArg Except.ok (Named.ext_of_get? hfound hout fun name => ?_)
    exact Except.ok.inj ((heach name).symm.trans (hall name))

/-- The order in which fields are visited has no effect on success, nor on what it gives. -/
theorem convertFields_perm {formats' : Named DateFormat} (h : formats'.Perm formats)
    (hformats : (formats.map Prod.fst).Nodup) (hfields : Named.Ascending fields) :
    convertFields convert formats' fields = .ok out ↔
      convertFields convert formats fields = .ok out := by
  have hformats' : (formats'.map Prod.fst).Nodup := (h.map Prod.fst).nodup_iff.mpr hformats
  rw [convertFields_eq_ok hformats hfields, convertFields_eq_ok hformats' hfields]
  simp only [Named.get?_perm h hformats']

/-- What stands under each name after conversion by formats in the order of names. -/
theorem convertFields_get? (hformats : Named.Ascending formats) (hfields : Named.Ascending fields)
    (h : convertFields convert formats fields = .ok out) :
    Named.Ascending out ∧ ∀ name, convertValue convert name (formats.get? name)
      (fields.get? name) = .ok (out.get? name) :=
  get?_of_convertFields hformats.nodup hfields h

/-- Whose error it is that conversion by formats in the order of names fails. -/
theorem convertFields_error {e : FormatError} (hformats : Named.Ascending formats)
    (h : convertFields convert formats fields = .error e) :
    ∃ name, convertValue convert name (formats.get? name) (fields.get? name) = .error e :=
  exists_of_convertFields_error hformats.nodup h

/-- What conversion preserves of values holds of all fields after it. -/
theorem convertFields_preserves {P : Json → Prop}
    (hconvert : ∀ name format v w, convert name format v = .ok w → P v → P w)
    (h : convertFields convert formats fields = .ok out) (hfields : ∀ field ∈ fields, P field.2) :
    ∀ field ∈ out, P field.2 := by
  induction formats generalizing fields with
  | nil =>
    cases h
    exact hfields
  | cons entry rest ih =>
    obtain ⟨name, format⟩ := entry
    unfold convertFields at h
    split at h
    · exact ih h hfields
    · exact ih h hfields
    · next v hnull hv =>
      obtain ⟨w, hw, hrest⟩ := bind_eq_ok.mp h
      refine ih hrest fun field hfield => ?_
      rcases Named.mem_insert hfield with rfl | hfield
      · exact hconvert name format v w hw (hfields _ (Named.mem_of_get? hv))
      · exact hfields field hfield

end

/-! ## Single values -/

namespace Date.DateFormat

/-- A value cannot be converted for keeping. -/
def CannotWrite (f : DateFormat) (v : Json) : Prop := ∃ e, f.toCanonical v = .error e

/-- A value is converted for keeping. -/
def Writes (f : DateFormat) (v w : Json) : Prop := f.toCanonical v = .ok w

/-- A kept value cannot be converted back: it is no text, or not one that can be. -/
def CannotRead (f : DateFormat) (v : Json) : Prop :=
  (∀ text, v ≠ .string text) ∨ ∃ text e, v = .string text ∧ f.ofCanonical text = .error e

/-- A kept value is converted back: it is a text that can be. -/
def Reads (f : DateFormat) (v w : Json) : Prop :=
  ∃ text, v = .string text ∧ f.ofCanonical text = .ok w

end Date.DateFormat

/-- Conversion visits the formats of the dates. -/
theorem Template.Mapping.fst_formats (m : Mapping) :
    m.formats.map Prod.fst = m.dates.map Prod.fst := by
  unfold Mapping.formats Named.mapValues
  rw [List.map_map]
  rfl

section

variable {convert : String → DateFormat → Json → Except FormatError Json}
variable {Fails : DateFormat → Json → Prop} {Gives : DateFormat → Json → Json → Prop}

/-- The conversion of a value leaves it alone under a passthrough format; under any other format it
fails for some values and gives something for others. -/
structure Converts (convert : String → DateFormat → Json → Except FormatError Json)
    (Fails : DateFormat → Json → Prop) (Gives : DateFormat → Json → Json → Prop) : Prop where
  passthrough : ∀ {name f}, f.isPassthrough = true → ∀ v, convert name f v = .ok v
  fails : ∀ {name f}, f.isPassthrough = false →
    ∀ v, (∃ e, convert name f v = .error e) ↔ Fails f v
  gives : ∀ {name f}, f.isPassthrough = false → ∀ v w, convert name f v = .ok w ↔ Gives f v w

theorem converts_writeField :
    Converts writeField DateFormat.CannotWrite DateFormat.Writes where
  passthrough := by
    rintro name (_ | _ | _) hf v
    · cases hf
    · cases hf
    · rfl
  fails _ _ := Iff.rfl
  gives _ _ _ := Iff.rfl

theorem converts_readField : Converts readField DateFormat.CannotRead DateFormat.Reads where
  passthrough hf _ := if_pos hf
  fails := by
    intro name f hf v
    unfold readField DateFormat.CannotRead
    rw [if_neg (by rw [hf]; decide)]
    cases v with
    | string text => simp
    | _ => simp
  gives := by
    intro name f hf v w
    unfold readField DateFormat.Reads
    rw [if_neg (by rw [hf]; decide)]
    cases v with
    | string text => simp
    | _ => simp

/-! ## Members -/

/-- A member of a document is a date to be converted: its name has a format that is no passthrough,
and it is not `null`. -/
def Template.Mapping.IsDate (m : Mapping) (a : String × Json) (f : DateFormat) : Prop :=
  m.format? a.1 = some f ∧ f.isPassthrough = false ∧ a.2 ≠ .null

/-- What becomes of a member: it stays as it is unless it is a date. -/
inductive ConvertedMember (Gives : DateFormat → Json → Json → Prop) (m : Mapping) :
    String × Json → String × Json → Prop
  | unchanged {name : String} {v : Json} :
    (m.format? name = none ∨ v = .null ∨ ∃ f ∈ m.format? name, f.isPassthrough = true) →
      ConvertedMember Gives m (name, v) (name, v)
  | date {name : String} {v w : Json} {f : DateFormat} :
    m.IsDate (name, v) f → Gives f v w → ConvertedMember Gives m (name, v) (name, w)

/-- What is no date has a name without a format, is `null`, or has a passthrough format. -/
theorem not_isDate_iff {m : Mapping} {name : String} {v : Json} :
    (¬ ∃ f, m.IsDate (name, v) f) ↔
      m.format? name = none ∨ v = .null ∨ ∃ f ∈ m.format? name, f.isPassthrough = true := by
  unfold Mapping.IsDate
  cases m.format? name with
  | none => simp
  | some f => cases hf : f.isPassthrough <;> simp [hf]

/-- A date is converted by its format. -/
theorem Template.Mapping.IsDate.convertValue_eq {m : Mapping} {name : String} {v : Json}
    {f : DateFormat} (h : m.IsDate (name, v) f) :
    convertValue convert name (m.format? name) (some v) = (convert name f v).map some := by
  rw [h.1]
  exact convertValue_of_ne_null h.2.2 name f

/-- Any other member stays as it is. -/
theorem Converts.convertValue_unchanged (hc : Converts convert Fails Gives) {m : Mapping}
    {name : String} {v : Json} (h : ¬ ∃ f, m.IsDate (name, v) f) :
    convertValue convert name (m.format? name) (some v) = .ok (some v) := by
  by_cases hnull : v = .null
  · exact convertValue_of_blank (.inr (congrArg some hnull)) name _
  · rcases not_isDate_iff.mp h with hnone | hv | ⟨f, hf, hpass⟩
    · rw [hnone]
      rfl
    · exact absurd hv hnull
    · rw [Option.mem_def.mp hf, convertValue_of_ne_null hnull, hc.passthrough hpass]
      rfl

/-- The conversion of a member fails just if it is a date that cannot be converted. -/
theorem Converts.convertValue_fails (hc : Converts convert Fails Gives) {m : Mapping}
    {name : String} {v : Json} :
    (∃ e, convertValue convert name (m.format? name) (some v) = .error e) ↔
      ∃ f, m.IsDate (name, v) f ∧ Fails f v := by
  by_cases h : ∃ f, m.IsDate (name, v) f
  · obtain ⟨f, hdate⟩ := h
    rw [hdate.convertValue_eq]
    simp only [map_eq_error, hc.fails hdate.2.1]
    refine ⟨fun hfails => ⟨f, hdate, hfails⟩, fun ⟨g, hg, hfails⟩ => ?_⟩
    rwa [Option.some.inj (hdate.1.symm.trans hg.1)]
  · rw [hc.convertValue_unchanged h]
    exact iff_of_false nofun fun ⟨f, hdate, _⟩ => h ⟨f, hdate⟩

/-- Otherwise it gives what becomes of the member. -/
theorem Converts.converted (hc : Converts convert Fails Gives) {m : Mapping} {name : String}
    {v : Json} {w : Option Json}
    (h : convertValue convert name (m.format? name) (some v) = .ok w) :
    ∃ u, w = some u ∧ ConvertedMember Gives m (name, v) (name, u) := by
  by_cases hdate : ∃ f, m.IsDate (name, v) f
  · obtain ⟨f, hdate⟩ := hdate
    rw [hdate.convertValue_eq] at h
    obtain ⟨u, hu, rfl⟩ := map_eq_ok.mp h
    exact ⟨u, rfl, .date hdate ((hc.gives hdate.2.1 v u).mp hu)⟩
  · rw [hc.convertValue_unchanged hdate] at h
    cases h
    exact ⟨v, rfl, .unchanged (not_isDate_iff.mp hdate)⟩

variable {m : Mapping} {fields : Named Json}

/-- The conversion of fields fails just if one of them is a date that cannot be converted. -/
theorem Converts.convertFields_fails (hc : Converts convert Fails Gives)
    (hm : (m.dates.map Prod.fst).Nodup) (hfields : Named.Ascending fields) :
    (∃ e, convertFields convert m.formats fields = .error e) ↔
      ∃ a ∈ fields, ∃ f, m.IsDate a f ∧ Fails f a.2 := by
  have hformats : (m.formats.map Prod.fst).Nodup := by rwa [m.fst_formats]
  constructor
  · rintro ⟨e, he⟩
    obtain ⟨name, hname⟩ := exists_of_convertFields_error hformats he
    cases hv : fields.get? name with
    | none =>
      rw [hv, convertValue_of_blank (.inl rfl)] at hname
      cases hname
    | some v =>
      rw [hv] at hname
      obtain ⟨f, hf⟩ := hc.convertValue_fails.mp ⟨e, hname⟩
      exact ⟨(name, v), Named.mem_of_get? hv, f, hf⟩
  · rintro ⟨⟨name, v⟩, hmem, hdate⟩
    rw [exists_error_iff]
    rintro ⟨out, hout⟩
    obtain ⟨e, he⟩ := hc.convertValue_fails.mpr hdate
    have hok := ((convertFields_eq_ok hformats hfields).mp hout).2 name
    rw [Named.get?_of_mem hfields hmem] at hok
    cases he.symm.trans hok

/-- Otherwise each member is converted by itself. -/
theorem Converts.forall₂_converted (hc : Converts convert Fails Gives)
    (hm : (m.dates.map Prod.fst).Nodup) (hfields : Named.Ascending fields) {out : Named Json}
    (h : convertFields convert m.formats fields = .ok out) :
    List.Forall₂ (ConvertedMember Gives m) fields out := by
  have hformats : (m.formats.map Prod.fst).Nodup := by rwa [m.fst_formats]
  obtain ⟨hout, hall⟩ := (convertFields_eq_ok hformats hfields).mp h
  have hrel : ∀ name, Option.Rel (fun v w => ConvertedMember Gives m (name, v) (name, w))
      (fields.get? name) (out.get? name) := by
    intro name
    have hname := hall name
    cases hv : fields.get? name with
    | none =>
      rw [hv, convertValue_of_blank (.inl rfl)] at hname
      rw [← Except.ok.inj hname]
      exact .none
    | some v =>
      rw [hv] at hname
      obtain ⟨u, hu, hconverted⟩ := hc.converted hname
      rw [hu]
      exact .some hconverted
  refine (Named.forall₂_of_get? hfields hout hrel).imp ?_
  rintro ⟨name, v⟩ ⟨other, w⟩ ⟨hname, hconverted⟩
  cases hname
  exact hconverted

end

/-! ## Documents -/

/-- The conversion of a document under a mapping changes its dates only: it fails with a decode error
just if the document is no object, with a format error just if a date cannot be converted, and
otherwise gives the same names with each member converted by itself. The order in which the dates
are visited has no effect on the kind of outcome or on the result. -/
structure ConvertsDates (run : Option Mapping → Json → Except Error Json)
    (Fails : DateFormat → Json → Prop) (Gives : DateFormat → Json → Json → Prop) (m : Mapping)
    (document : Json) : Prop where
  decode : (∃ e, run (some m) document = .error (.decode e)) ↔ document.isObject = false
  format : (∃ e, run (some m) document = .error (.format e)) ↔
    ∃ fields, document = .object fields ∧ ∃ a ∈ fields, ∃ f, m.IsDate a f ∧ Fails f a.2
  ok : ∀ fields, document = .object fields →
    (∀ a ∈ fields, ∀ f, m.IsDate a f → ¬ Fails f a.2) →
    ∃ out, run (some m) document = .ok (.object out) ∧
      List.Forall₂ (ConvertedMember Gives m) fields out
  order : ∀ m' : Mapping, m'.dates.Perm m.dates →
    (run (some m') document).mapError Error.kind = (run (some m) document).mapError Error.kind

/-- A document that is no object has no members to convert. -/
theorem convertDocument_of_not_isObject {convert : String → DateFormat → Json →
    Except FormatError Json} {document : Json} (h : document.isObject = false) (m : Mapping) :
    convertDocument convert (some m) document = .error (.decode .notAnObject) := by
  cases document with
  | object fields => cases h
  | _ => rfl

/-- The outcome for an object is that of its fields. -/
theorem convertDocument_object (convert : String → DateFormat → Json → Except FormatError Json)
    (m : Mapping) (fields : Named Json) :
    convertDocument convert (some m) (.object fields) =
      ((convertFields convert m.formats fields).mapError .format).map .object := rfl

/-- Conversion by fields changes the dates of a document only. -/
theorem Converts.convertsDates {convert : String → DateFormat → Json → Except FormatError Json}
    {Fails : DateFormat → Json → Prop} {Gives : DateFormat → Json → Json → Prop}
    (hc : Converts convert Fails Gives) {m : Mapping} (hm : (m.dates.map Prod.fst).Nodup)
    {document : Json} (hdocument : ∀ fields, document = .object fields → Named.Ascending fields) :
    ConvertsDates (convertDocument convert) Fails Gives m document := by
  by_cases hobject : document.isObject = false
  · have hrun : ∀ m', convertDocument convert (some m') document =
        .error (.decode .notAnObject) := convertDocument_of_not_isObject hobject
    have hnot : ∀ fields, document ≠ .object fields := by
      rintro fields rfl
      cases hobject
    refine ⟨?_, ?_, fun fields h => absurd h (hnot fields), fun m' _ => ?_⟩
    · exact iff_of_true ⟨_, hrun m⟩ hobject
    · rw [hrun]
      exact iff_of_false nofun fun ⟨fields, h, _⟩ => hnot fields h
    · rw [hrun, hrun]
  · obtain ⟨fields, rfl⟩ : ∃ fields, document = .object fields := by
      cases document with
      | object fields => exact ⟨fields, rfl⟩
      | _ => exact absurd rfl hobject
    have hfields := hdocument fields rfl
    have hformats : (m.formats.map Prod.fst).Nodup := by rwa [m.fst_formats]
    refine ⟨?_, ?_, ?_, fun m' hperm => ?_⟩
    · refine iff_of_false ?_ hobject
      rintro ⟨e, he⟩
      rw [convertDocument_object, map_eq_error] at he
      obtain ⟨d, -, hd⟩ := mapError_eq_error.mp he
      cases hd
    · simp only [convertDocument_object, map_eq_error, mapError_eq_error, Error.format.injEq,
        exists_eq_right, hc.convertFields_fails hm hfields, Json.object.injEq, exists_eq_left']
    · rintro _ ⟨⟩ hall
      have hok : ¬ ∃ e, convertFields convert m.formats fields = .error e := by
        rw [hc.convertFields_fails hm hfields]
        rintro ⟨a, ha, f, hdate, hfails⟩
        exact hall a ha f hdate hfails
      rw [exists_error_iff, not_not] at hok
      obtain ⟨out, hout⟩ := hok
      refine ⟨out, ?_, hc.forall₂_converted hm hfields hout⟩
      rw [convertDocument_object, hout]
      rfl
    · have hperm' : m'.formats.Perm m.formats := hperm.map _
      have hsame : ∀ out, convertFields convert m'.formats fields = .ok out ↔
          convertFields convert m.formats fields = .ok out := fun out =>
        convertFields_perm hperm' hformats hfields
      rw [convertDocument_object, convertDocument_object]
      cases h : convertFields convert m.formats fields with
      | ok out => rw [(hsame out).mpr h]
      | error e =>
        cases h' : convertFields convert m'.formats fields with
        | ok out => cases h.symm.trans ((hsame out).mp h')
        | error e' => rfl

/-- Documents are converted in both directions by their dates only, and not at all without a
mapping. -/
theorem document_convertsDates (document : Json) :
    writeDocument none document = .ok document ∧ readDocument none document = .ok document ∧
    ∀ m : Mapping, (m.dates.map Prod.fst).Nodup →
      (∀ fields, document = .object fields → Named.Ascending fields) →
      ConvertsDates writeDocument DateFormat.CannotWrite DateFormat.Writes m document ∧
      ConvertsDates readDocument DateFormat.CannotRead DateFormat.Reads m document :=
  ⟨rfl, rfl, fun _ hm hdocument =>
    ⟨converts_writeField.convertsDates hm hdocument, converts_readField.convertsDates hm hdocument⟩⟩

/-- A mapping with two dates and one in a format that is left alone. -/
def spansMapping : Mapping where
  pattern := ".*spans.*"
  dates := [("endTime", "epoch_second"), ("label", "yyyy-MM-dd"), ("startTime", "epoch_millis")]

/-- A span whose start is no count. -/
def spanAtNoon : Named Json :=
  [("endTime", .null), ("label", .string "2024-01-01"), ("startTime", .string "noon")]

/-- Such a span is not kept, in whatever order its dates are visited. -/
theorem document_convertsDates_example :
    (∃ e, writeDocument (some spansMapping) (.object spanAtNoon) = .error (.format e)) ∧
    ∀ m : Mapping, m.dates.Perm spansMapping.dates →
      ∃ e, writeDocument (some m) (.object spanAtNoon) = .error e ∧ e.kind = .format := by
  obtain ⟨hwrite, -⟩ := (document_convertsDates (.object spanAtNoon)).2.2 spansMapping (by decide) (by
    rintro _ ⟨⟩
    decide)
  obtain ⟨e, he⟩ := hwrite.format.mpr ⟨spanAtNoon, rfl, ("startTime", .string "noon"),
    by simp [spanAtNoon], .epochMillis, ⟨rfl, rfl, nofun⟩, _, rfl⟩
  refine ⟨⟨e, he⟩, fun m hm => ?_⟩
  have hkind := hwrite.order m hm
  rw [he] at hkind
  exact mapError_eq_error.mp hkind

end Quarry
