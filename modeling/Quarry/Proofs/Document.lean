/-
# Documents are read back

What clients see of a document that was kept is the document, but for its dates: counts come back as
whole seconds.

* `ReadBack` — whether the dates of a document lie in the years that canonical text reads back.
* `readDocument_writeDocument` — a kept document is read back if and only if they do.
-/
import Quarry.Proofs.Conversion
import Quarry.Proofs.Date.Counts

namespace Quarry

open Quarry.Date Quarry.Outcome Quarry.Template Quarry.Text

/-! ## Reading back -/

theorem shown_of_sent {format : DateFormat} (hf : format.isPassthrough = false) {v : Json} {n : Int}
    (hn : sentInteger? v = some n) : format.shown v = .ofInt (format.wholeSeconds n) := by
  cases format with
  | passthrough name => cases hf
  | epochMillis => simp only [DateFormat.shown, DateFormat.wholeSeconds, hn]
  | epochSecond => simp only [DateFormat.shown, DateFormat.wholeSeconds, hn]

/-- A canonical text is read back if its year has four digits. -/
theorem readField_canonicalText {format : DateFormat} (hf : format.isPassthrough = false)
    {v : Json} {n : Int} (hn : sentInteger? v = some n) (name : String) :
    readField name format (.string (canonicalText (format.secondOf n))) =
      if InFourDigitYear (format.secondOf n) then .ok (format.shown v)
      else .error (.notTimestamp (canonicalText (format.secondOf n))) := by
  rw [readField, if_neg (by rw [hf]; decide), shown_of_sent hf hn]
  exact ofCanonical_canonicalText hf n

/-- What clients see under the names of a document that they sent. -/
def shownFields (m : Mapping) (fields : Named Json) : Named Json :=
  fields.map fun (name, v) => (name, (m.format? name).elim v (·.shown v))

/-- Whether the date fields of a document hold what clients may send for instants. -/
def HasCounts (m : Mapping) (fields : Named Json) : Prop :=
  ∀ name format v, m.format? name = some format → format.isPassthrough = false →
    fields.get? name = some v → IsCount v

/-- Whether the date fields of a document lie in years of four digits. -/
def ReadBack (m : Mapping) (fields : Named Json) : Prop :=
  ∀ name format v n, m.format? name = some format → format.isPassthrough = false →
    fields.get? name = some v → sentInteger? v = some n → InFourDigitYear (format.secondOf n)

/-- Why a field is not read back. -/
def NotReadBack (format : Option DateFormat) (v : Option Json) (second : Int) : Prop :=
  ∃ f u n, format = some f ∧ f.isPassthrough = false ∧ v = some u ∧ sentInteger? u = some n ∧
    second = f.secondOf n ∧ ¬ InFourDigitYear second

/-- A field with a passthrough format is left alone. -/
theorem convertValue_passthrough {convert : String → DateFormat → Json → Except FormatError Json}
    {f : DateFormat} {name : String} (h : ∀ v, convert name f v = .ok v) (v : Option Json) :
    convertValue convert name (some f) v = .ok v := by
  cases v with
  | none => rfl
  | some u =>
    cases u with
    | null => rfl
    | _ => exact congrArg (Except.map some) (h _)

theorem shown_of_passthrough {f : DateFormat} (h : f.isPassthrough = true) (v : Json) :
    f.shown v = v := by
  cases f with
  | passthrough name => rfl
  | epochMillis => cases h
  | epochSecond => cases h

/-- What reading gives for a field that was kept: what clients see of it, or the second that is not
read back. -/
def ComesBack (name : String) (format : Option DateFormat) (v w : Option Json) : Prop :=
  ((∀ second, ¬ NotReadBack format v second) ∧
    convertValue readField name format w = .ok (v.map fun u => format.elim u (·.shown u))) ∨
  ∃ second, NotReadBack format v second ∧
    convertValue readField name format w = .error (.notTimestamp (canonicalText second))

theorem comesBack_of_passthrough {f : DateFormat} (hf : f.isPassthrough = true) (name : String)
    (v : Option Json) : ComesBack name (some f) v v := by
  refine .inl ⟨?_, ?_⟩
  · rintro second ⟨f', u, n, hf', hpass, -⟩
    cases hf'
    cases hf.symm.trans hpass
  · have hread : ∀ u, readField name f u = .ok u := fun u => if_pos hf
    rw [convertValue_passthrough hread]
    cases v with
    | none => rfl
    | some u => exact congrArg (Except.ok ∘ some) (shown_of_passthrough hf u).symm

theorem comesBack_of_blank {v : Option Json} (hblank : v = none ∨ v = some .null) (name : String)
    (f : DateFormat) : ComesBack name (some f) v v := by
  refine .inl ⟨?_, ?_⟩
  · rintro second ⟨f', u, n, -, -, rfl, hn, -⟩
    rcases hblank with hblank | hblank
    · cases hblank
    · cases hblank
      cases hn
  · rw [convertValue_of_blank hblank]
    rcases hblank with rfl | rfl <;> cases f <;> rfl

theorem notReadBack_iff {f : DateFormat} (hf : f.isPassthrough = false) {u : Json} {n : Int}
    (hn : sentInteger? u = some n) (second : Int) :
    NotReadBack (some f) (some u) second ↔
      second = f.secondOf n ∧ ¬ InFourDigitYear (f.secondOf n) := by
  constructor
  · rintro ⟨f', u', n', hf', -, hu', hn', rfl, hyear⟩
    cases hf'
    cases hu'
    cases hn.symm.trans hn'
    exact ⟨rfl, hyear⟩
  · rintro ⟨rfl, hyear⟩
    exact ⟨f, u, n, rfl, hf, rfl, hn, rfl, hyear⟩

theorem comesBack_of_count {f : DateFormat} (hf : f.isPassthrough = false) {u : Json} {n : Int}
    (hn : sentInteger? u = some n) (name : String) :
    ComesBack name (some f) (some u) (some (.string (canonicalText (f.secondOf n)))) := by
  have hread : convertValue readField name (some f)
      (some (.string (canonicalText (f.secondOf n)))) = _ :=
    congrArg (Except.map some) (readField_canonicalText hf hn name)
  rw [ComesBack, hread]
  simp only [notReadBack_iff hf hn]
  by_cases hyear : InFourDigitYear (f.secondOf n)
  · rw [if_pos hyear]
    exact .inl ⟨fun second h => h.2 hyear, rfl⟩
  · rw [if_neg hyear]
    exact .inr ⟨f.secondOf n, ⟨rfl, hyear⟩, rfl⟩

/-- One field there and back. -/
theorem convertValue_readField {format : Option DateFormat} {v w : Option Json} {name : String}
    (hv : ∀ f u, format = some f → f.isPassthrough = false → v = some u → IsCount u)
    (h : convertValue writeField name format v = .ok w) : ComesBack name format v w := by
  cases format with
  | none =>
    cases h
    refine .inl ⟨?_, congrArg Except.ok Option.map_id'.symm⟩
    rintro second ⟨f, u, n, hf, -⟩
    cases hf
  | some f =>
    by_cases hf : f.isPassthrough = true
    · have hwrite : ∀ u, writeField name f u = .ok u := by
        intro u
        cases f with
        | passthrough _ => rfl
        | _ => cases hf
      rw [convertValue_passthrough hwrite] at h
      cases h
      exact comesBack_of_passthrough hf name v
    · rw [Bool.not_eq_true] at hf
      by_cases hblank : v = none ∨ v = some .null
      · rw [convertValue_of_blank hblank] at h
        cases h
        exact comesBack_of_blank hblank name f
      · obtain ⟨u, rfl⟩ := Option.ne_none_iff_exists'.mp fun hnone => hblank (.inl hnone)
        have hconvert : convertValue writeField name (some f) (some u) =
            (writeField name f u).map some := by
          cases u with
          | null => exact absurd (.inr rfl) hblank
          | _ => rfl
        obtain ⟨x, hx, rfl⟩ := map_eq_ok.mp (hconvert.symm.trans h)
        obtain ⟨n, hn, rfl⟩ := exists_of_toCanonical hf (hv f u rfl hf rfl) hx
        exact comesBack_of_count hf hn name

/-- A kept document is read back if its dates lie in years of four digits: it comes back as it was
sent, but counts as whole seconds. Otherwise reading it fails. -/
theorem readDocument_writeDocument {m : Mapping} {fields : Named Json} {stored : Json}
    (hm : Named.Ascending m.dates) (hfields : Named.Ascending fields)
    (hcounts : HasCounts m fields) (h : writeDocument (some m) (.object fields) = .ok stored) :
    (ReadBack m fields →
      readDocument (some m) stored = .ok (.object (shownFields m fields))) ∧
    (¬ ReadBack m fields → ∃ second, ¬ InFourDigitYear second ∧
      readDocument (some m) stored =
        .error (.format (.notTimestamp (canonicalText second)))) := by
  have hformats : Named.Ascending m.formats :=
    Named.ascending_map hm fun _ => DateFormat.ofName
  obtain ⟨kept, hkept, rfl⟩ := map_eq_ok.mp h
  obtain ⟨hascending, hwritten⟩ :=
    convertFields_get? hformats hfields (mapError_eq_ok.mp hkept)
  have hfield := fun name =>
    convertValue_readField (fun f u hf hp hu => hcounts name f u hf hp hu) (hwritten name)
  -- A field that is not read back shows that the document is not.
  have hnot : ∀ {name second}, NotReadBack (m.format? name) (fields.get? name) second →
      ¬ ReadBack m fields ∧ ¬ InFourDigitYear second := by
    rintro name _ ⟨f, u, n, hf, hp, hu, hn, rfl, hyear⟩
    exact ⟨fun hback => hyear (hback name f u n hf hp hu hn), hyear⟩
  cases hread : convertFields readField m.formats kept with
  | ok out =>
    obtain ⟨hout, hall⟩ := convertFields_get? hformats hascending hread
    have hshown : out = shownFields m fields := by
      refine Named.ext_of_get? hout (Named.ascending_map hfields fun name v =>
        (m.format? name).elim v (·.shown v)) fun name => ?_
      have hname := hall name
      rcases hfield name with ⟨-, hok⟩ | ⟨second, -, herror⟩
      · rw [shownFields, Named.get?_map fields fun name v => (m.format? name).elim v (·.shown v)]
        exact Except.ok.inj (hname.symm.trans hok)
      · cases hname.symm.trans herror
    have hback : ReadBack m fields := by
      intro name f v n hf hp hv hn
      by_contra hyear
      rcases hfield name with ⟨hnone, -⟩ | ⟨second, -, herror⟩
      · exact hnone _ ⟨f, v, n, hf, hp, hv, hn, rfl, hyear⟩
      · cases (hall name).symm.trans herror
    refine ⟨fun _ => ?_, fun hnback => absurd hback hnback⟩
    rw [← hshown]
    show ((convertFields readField m.formats kept).mapError _).map _ = _
    rw [hread]
    rfl
  | error e =>
    obtain ⟨name, hname⟩ := convertFields_error hformats hread
    rcases hfield name with ⟨-, hok⟩ | ⟨second, hsecond, herror⟩
    · cases hname.symm.trans hok
    · obtain ⟨hnback, hyear⟩ := hnot hsecond
      refine ⟨fun hback => absurd hback hnback, fun _ => ⟨second, hyear, ?_⟩⟩
      show ((convertFields readField m.formats kept).mapError _).map _ = _
      rw [hread]
      exact congrArg (Except.error ∘ Error.format) (Except.error.inj (hname.symm.trans herror))

/-- A mapping with two dates. -/
def visitsMapping : Mapping where
  pattern := "visits.*"
  dates := [("end", "epoch_second"), ("start", "epoch_millis")]

/-- A document under it is read back, its milliseconds cut off. -/
theorem readDocument_writeDocument_example : ∃ stored,
    writeDocument (some visitsMapping) (.object [("start", .ofInt (-1)), ("who", .string "b")]) =
      .ok stored ∧
    readDocument (some visitsMapping) stored =
      .ok (.object [("start", .ofInt (-1000)), ("who", .string "b")]) := by
  have hstart : ∀ name v, Named.get? name [("start", Json.ofInt (-1)), ("who", .string "b")] =
      some v → ∀ format, visitsMapping.format? name = some format →
        v = .ofInt (-1) ∧ format = .epochMillis := by
    intro name v hv format hformat
    rcases List.mem_cons.mp (Named.mem_of_get? hv) with h | h
    · cases h
      exact ⟨rfl, (Option.some.inj hformat).symm⟩
    · cases List.mem_singleton.mp h
      cases hformat
  obtain ⟨stored, hstored⟩ : ∃ stored, writeDocument (some visitsMapping)
      (.object [("start", .ofInt (-1)), ("who", .string "b")]) = .ok stored := ⟨_, rfl⟩
  refine ⟨stored, hstored, (readDocument_writeDocument (by decide) (by decide) ?_ hstored).1 ?_⟩
  · intro name format v hformat _ hv
    obtain ⟨rfl, -⟩ := hstart name v hv format hformat
    exact .inr (.inl ⟨_, rfl⟩)
  · intro name format v n hformat _ hv hn
    obtain ⟨rfl, rfl⟩ := hstart name v hv format hformat
    cases hn
    decide +kernel

/-- The first second of the year 10000 is accepted, but not read back. -/
theorem readDocument_of_year_10000 : ∃ stored,
    writeDocument (some visitsMapping) (.object [("end", .ofInt 253402300800)]) = .ok stored ∧
    readDocument (some visitsMapping) stored =
      .error (.format (.notTimestamp "+10000-01-01T00:00:00Z")) :=
  ⟨_, rfl, rfl⟩

end Quarry
