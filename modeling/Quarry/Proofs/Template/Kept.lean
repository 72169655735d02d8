/-
# Mappings as they are kept

A store keeps the pattern of a mapping, and its date fields as the text of an object.

* `Mapping.Ordered`, `TemplateRequest.Ordered` — the fields stand in the order of their names.
* `TemplateRequest.ofBytes_ordered` — so they do in every request that is read.
* `Mapping.ofTexts_text` — a mapping is read back from what is kept of it.
-/
import Quarry.Proofs.Json.Kept
import Quarry.Proofs.Json.ReadBack
import Quarry.Proofs.Request.Ordered
import Quarry.Template.Basic

namespace Quarry.Template

open Quarry.Json Quarry.Outcome Quarry.Text

/-! ## Order -/

/-- The date fields stand in the order of their names. -/
def Mapping.Ordered (m : Mapping) : Prop := Named.Ascending m.dates

/-- The properties stand in the order of their names. -/
def TemplateRequest.Ordered (r : TemplateRequest) : Prop := Named.Ascending r.properties

instance (r : TemplateRequest) : Decidable r.Ordered :=
  inferInstanceAs (Decidable (Named.Ascending r.properties))

/-- Leaving out what is no date keeps the order. -/
theorem TemplateRequest.Ordered.mapping {r : TemplateRequest} (h : r.Ordered) :
    r.mapping.Ordered :=
  Named.ascending_map (List.Pairwise.filter _ h) fun _ => FieldMapping.format

/-- Every request that is read has its properties in order. -/
theorem TemplateRequest.decode_gives : TemplateRequest.decode.Gives TemplateRequest.Ordered := by
  have hproperties : Decoder.Gives propertiesRecord.decode Named.Ascending := by
    refine Record.decode_invariant Named.ascending_nil fun name o a b _ hb => ?_
    exact ((Decoder.gives_true FieldMapping.record.decode).namedOf o b hb).1
  refine Record.decode_invariant Named.ascending_nil fun name o a b ha hb => ?_
  simp only [TemplateRequest.record] at hb
  split at hb
  · obtain ⟨-, -, rfl⟩ := map_eq_ok.mp hb
    exact ha
  · obtain ⟨-, -, rfl⟩ := map_eq_ok.mp hb
    exact ha
  · obtain ⟨v, hv, rfl⟩ := map_eq_ok.mp hb
    exact hproperties o v hv

/-- So has every body that is read. -/
theorem TemplateRequest.ofBytes_ordered {body : List UInt8} {r : TemplateRequest}
    (h : TemplateRequest.ofBytes body = .ok r) : r.Ordered := by
  obtain ⟨a, ha, h⟩ := bind_eq_ok.mp h
  split_ifs at h
  · cases h
  · cases h
    exact TemplateRequest.decode_gives _ _ ha

/-! ## Texts -/

namespace Mapping

/-- A date field as it is read back. -/
def dateField (format : String) : FieldMapping := ⟨dateType, format⟩

/-- A date field is read back; a format that is empty is left out of the text. -/
theorem decode_fieldJson (format : String) :
    FieldMapping.record.decode (fieldJson format).outline = .ok (dateField format) := by
  unfold fieldJson
  split_ifs with h
  · rw [String.isEmpty_iff.mp h]
    rfl
  · rfl

theorem writable_fieldJson (format : String) : (fieldJson format).Writable := by
  refine .object _ fun m hm => ?_
  rcases List.mem_cons.mp hm with rfl | hm
  · exact .string dateType
  · split_ifs at hm with h
    · cases hm
    · rw [List.mem_singleton.mp hm]
      exact .string format

theorem floats_fieldJson (format : String) : (fieldJson format).floats = [] := by
  unfold fieldJson
  split_ifs <;> rfl

theorem nesting_fieldJson (format : String) : (fieldJson format).nesting = 1 := by
  unfold fieldJson
  split_ifs <;> rfl

section

variable (dates : Named String)

theorem floats_fields : Json.membersFloats (dates.mapValues fieldJson) = [] := by
  induction dates with
  | nil => rfl
  | cons date rest ih =>
    obtain ⟨name, format⟩ := date
    show (fieldJson format).floats ++ Json.membersFloats (Named.mapValues fieldJson rest) = []
    rw [floats_fieldJson, ih]
    rfl

theorem nesting_fields : Json.membersNesting (dates.mapValues fieldJson) ≤ 1 := by
  induction dates with
  | nil => exact Nat.zero_le 1
  | cons date rest ih =>
    obtain ⟨name, format⟩ := date
    show max (fieldJson format).nesting
      (Json.membersNesting (Named.mapValues fieldJson rest)) ≤ 1
    rw [nesting_fieldJson]
    exact Nat.max_le.mpr ⟨Nat.le_refl 1, ih⟩

/-- Date fields are read one after another. -/
theorem members_fields (done : Named FieldMapping) :
    Decoder.members FieldMapping.record.decode done
      (Json.membersOutline (dates.mapValues fieldJson)) .closed =
      .ok ((dates.mapValues dateField).foldl (fun named (name, f) => named.insert name f) done) := by
  induction dates generalizing done with
  | nil => rfl
  | cons date rest ih =>
    obtain ⟨name, format⟩ := date
    show Decoder.members FieldMapping.record.decode done
      ((.ok name, (fieldJson format).outline) ::
        Json.membersOutline (Named.mapValues fieldJson rest)) .closed = _
    refine bind_eq_ok.mpr ⟨name, rfl, ?_⟩
    refine bind_eq_ok.mpr ⟨dateField format, decode_fieldJson format, ?_⟩
    exact ih (done.insert name (dateField format))

end

variable {m : Mapping}

theorem writable_propertiesJson (m : Mapping) : m.propertiesJson.Writable := by
  refine .object _ fun member hmember => ?_
  obtain ⟨⟨name, format⟩, -, rfl⟩ := List.mem_map.mp hmember
  exact writable_fieldJson format

theorem nesting_propertiesJson (m : Mapping) : m.propertiesJson.nesting ≤ 2 :=
  Nat.succ_le_succ (nesting_fields m.dates)

/-- The text of the date fields is kept as it is. -/
theorem ofText?_propertiesJson (m : Mapping) : ∃ v,
    Verbatim.ofText? m.propertiesJson.text = some v ∧ v.text = m.propertiesJson.text := by
  have hdeep : m.propertiesJson.nesting ≤ Verbatim.nestingLimit :=
    Nat.le_trans m.nesting_propertiesJson (by decide)
  refine ⟨_, ?_, Verbatim.text_ofJson m.writable_propertiesJson⟩
  rw [Verbatim.ofText?_text m.writable_propertiesJson, if_pos hdeep]

/-- Fields that are dates are all kept. -/
theorem ofProperties_dateField (pattern : String) (dates : Named String) :
    ofProperties pattern (dates.mapValues dateField) = ⟨pattern, dates⟩ := by
  have hdates : (dates.mapValues dateField).filter (fun (_, f) => f.type == dateType) =
      dates.mapValues dateField := by
    refine List.filter_eq_self.mpr fun f hf => ?_
    obtain ⟨⟨name, format⟩, -, rfl⟩ := List.mem_map.mp hf
    exact beq_self_eq_true dateType
  have hformats : (dates.mapValues dateField).mapValues FieldMapping.format = dates := by
    rw [Named.mapValues, Named.mapValues, List.map_map]
    exact List.map_id dates
  rw [ofProperties, hdates, hformats]

/-- A mapping is read back from its pattern and the text of its date fields. -/
theorem ofTexts_text (h : m.Ordered) : ofTexts m.pattern m.propertiesJson.text = .ok m := by
  have hfloats : m.propertiesJson.FloatsReadBack := by
    intro x hx
    rw [show m.propertiesJson.floats = [] from floats_fields m.dates] at hx
    cases hx
  have hdeep : m.propertiesJson.nesting ≤ Scanner.nestingLimit :=
    Nat.le_trans m.nesting_propertiesJson (by decide)
  have hread : decodeText (Decoder.namedOf FieldMapping.record.decode)
      (Utf8.encode m.propertiesJson.text) = .ok (m.dates.mapValues dateField) := by
    rw [decodeText, Scanner.scan_text m.writable_propertiesJson hdeep hfloats]
    refine bind_eq_ok.mpr ⟨m.dates.mapValues dateField, ?_, rfl⟩
    have hlist := Named.ofList_eq_self (Named.ascending_map h fun _ => dateField)
    exact (members_fields m.dates []).trans (congrArg Except.ok hlist)
  rw [ofTexts, hread]
  exact congrArg Except.ok (ofProperties_dateField m.pattern m.dates)

end Mapping

end Quarry.Template
