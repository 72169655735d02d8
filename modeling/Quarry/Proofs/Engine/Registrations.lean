/-
# Requests to set up templates

A template is put into the registry first, and kept in the store then.

* `putTemplate_run` — the two steps over any store.
* `putTemplate_failed` — what a request leaves behind that fails in either of them.
-/
import Quarry.Proofs.Engine.Runs
import Quarry.Proofs.Store.Templates
import Quarry.Proofs.Template.Registry
import Quarry.Store.Scripted

namespace Quarry.Engine

open Quarry.Engine.Program (World)
open Quarry.Store Quarry.Template

variable {σ : Type}

/-- A template is kept once it is in the registry. -/
theorem putTemplate_run (s : Store σ) (name : String) (r : TemplateRequest) (w : World σ) :
    (attempt (putTemplate name r)).run s w =
      match w.registry.put name r.mapping with
      | .error e => (.error e, w)
      | .ok registry =>
        match s.perform (.saveTemplate name r.mapping) w.store with
        | (.ok (), t) => (.ok r.mapping, ⟨t, registry⟩)
        | (.error reason, t) => (.error (.storage reason), ⟨t, registry⟩) := by
  unfold putTemplate
  rw [run_bind, run_register]
  cases w.registry.put name r.mapping with
  | error e => rfl
  | ok registry =>
    simp only
    rw [run_bind]
    have hcall : (attempt (call (.saveTemplate name r.mapping))).run s ⟨w.store, registry⟩ =
        ((s.perform (.saveTemplate name r.mapping) w.store).1.mapError .storage,
          ⟨(s.perform (.saveTemplate name r.mapping) w.store).2, registry⟩) := rfl
    rw [hcall]
    obtain ⟨x, t⟩ := s.perform (.saveTemplate name r.mapping) w.store
    cases x <;> rfl

/-! ## Failures -/

/-- Whatever is asked of the templates of a registry has the same answer. -/
structure SameTemplates (r r' : Registry) : Prop where
  list : r'.toList = r.toList
  get : ∀ name, r'.get? name = r.get? name
  lookup : ∀ index, r'.lookup index = r.lookup index

/-- They have the same answers if and only if the lists are the same. -/
theorem sameTemplates_iff {r r' : Registry} : SameTemplates r r' ↔ r'.toList = r.toList := by
  refine ⟨SameTemplates.list, fun h => ?_⟩
  obtain rfl := Registry.ext_toList h
  exact ⟨rfl, fun _ => rfl, fun _ => rfl⟩

/-- The templates that a store loads, if it does. -/
def loaded (s : Store σ) (t : σ) : Except StorageError (List (String × Mapping)) :=
  (s.perform .loadTemplates t).1

/-- A store that fails to keep a template loads the ones that it did before. -/
def SavesWhole (s : Store σ) : Prop := ∀ name m t t' reason,
  s.perform (.saveTemplate name m) t = (.error reason, t') → loaded s t' = loaded s t

/-- Tables never fail to keep a template. -/
theorem savesWhole_tables : SavesWhole Tables.store := by
  intro name m t t' reason h
  rw [Tables.perform_saveTemplate] at h
  cases h

theorem loaded_script (t : Script) : loaded Script.store t =
    match t.failures.lookup "load_templates" with
    | some text => .error (.reported text)
    | none => .ok t.templates := by
  have hperform : Script.store.perform .loadTemplates t =
      match t.failures.lookup "load_templates" with
      | some text => (.error (.reported text), { t with record := .loadTemplates :: t.record })
      | none => (.ok t.templates, { t with record := .loadTemplates :: t.record }) := rfl
  rw [loaded, hperform]
  cases t.failures.lookup "load_templates" <;> rfl

/-- A script that fails to keep one only puts the call on record. -/
theorem savesWhole_script : SavesWhole Script.store := by
  intro name m t t' reason h
  have hperform : Script.store.perform (.saveTemplate name m) t =
      match t.failures.lookup "save_template" with
      | some text => (.error (.reported text),
          { t with record := .saveTemplate name m :: t.record })
      | none => (.ok (), { t with
          record := .saveTemplate name m :: t.record
          templates := replaceOrAppend name m t.templates }) := rfl
  rw [hperform] at h
  split at h
  · cases h
    rw [loaded_script, loaded_script]
  · cases h

/-- A request that fails leaves the templates of the registry as they were if and only if its
pattern cannot be read, or the registry had this very mapping under the name. Otherwise the store
failed to keep the template, which is in the registry nevertheless. A store that saves whole has the
same templates in either case. -/
theorem putTemplate_failed {s : Store σ} {w w' : World σ} {name : String} {r : TemplateRequest}
    {e : Error} (h : (attempt (putTemplate name r)).run s w = (.error e, w')) :
    (SameTemplates w.registry w'.registry ↔
      ¬ r.mapping.IsReadable ∨ w.registry.get? name = some r.mapping) ∧
    (¬ r.mapping.IsReadable → e = .template r.mapping.pattern ∧ w' = w) ∧
    (r.mapping.IsReadable →
      w'.registry.toList = replaceOrAppend name r.mapping w.registry.toList ∧
      ∃ reason, e = .storage reason ∧
        s.perform (.saveTemplate name r.mapping) w.store = (.error reason, w'.store)) ∧
    (SavesWhole s → loaded s w'.store = loaded s w.store) := by
  rw [putTemplate_run] at h
  cases hput : w.registry.put name r.mapping with
  | error e' =>
    obtain ⟨hnot, rfl⟩ := Registry.put_eq_error.mp hput
    rw [hput] at h
    cases h
    refine ⟨iff_of_true (sameTemplates_iff.mpr rfl) (.inl hnot), fun _ => ⟨rfl, rfl⟩,
      fun hreadable => absurd hreadable hnot, fun _ => rfl⟩
  | ok registry =>
    obtain ⟨hreadable, hlist⟩ := Registry.put_eq_ok.mp hput
    rw [hput] at h
    cases hsave : s.perform (.saveTemplate name r.mapping) w.store with
    | mk x t =>
      rw [hsave] at h
      cases x with
      | ok u => cases h
      | error reason =>
        cases h
        refine ⟨?_, fun hnot => absurd hreadable hnot, fun _ => ⟨hlist, reason, rfl, rfl⟩,
          fun hs => hs _ _ _ _ _ hsave⟩
        rw [sameTemplates_iff, hlist, replaceOrAppend_eq_self, Registry.get?_eq_lookup,
          or_iff_right (not_not_intro hreadable)]

/-- A request for one date field. -/
def visitsRequest : TemplateRequest := ⟨"visits-*", [("at", ⟨"date", "epoch_second"⟩)]⟩

/-- A store that keeps no template, and an engine without templates. -/
def refusing : World Script := { store := { failures := [("save_template", "disk full")] } }

theorem putTemplate_failed_example : ∃ w',
    (attempt (putTemplate "visits" visitsRequest)).run Script.store refusing =
      (.error (.storage (.reported "disk full")), w') ∧
    ¬ SameTemplates refusing.registry w'.registry ∧
    w'.registry.toList = [("visits", visitsRequest.mapping)] ∧
    loaded Script.store w'.store = loaded Script.store refusing.store := by
  have hreadable : visitsRequest.mapping.IsReadable := by decide +kernel
  have herror : ((attempt (putTemplate "visits" visitsRequest)).run Script.store refusing).1 =
      .error (.storage (.reported "disk full")) := by decide +kernel
  obtain ⟨hsame, -, hfailed, hloaded⟩ := putTemplate_failed (Prod.ext herror rfl)
  refine ⟨_, Prod.ext herror rfl, fun h => ?_, (hfailed hreadable).1, hloaded savesWhole_script⟩
  rcases hsame.mp h with hnot | hthere
  · exact hnot hreadable
  · cases hthere

/-- A template that the store refuses to keep applies to its indices nevertheless, until the engine
is opened again. -/
theorem putTemplate_of_refused_save :
    let after := ((attempt (putTemplate "visits" visitsRequest)).run Script.store refusing).2
    ((attempt (putTemplate "visits" visitsRequest)).run Script.store refusing).1 =
      .error (.storage (.reported "disk full")) ∧
    refusing.registry.lookup "visits-1" = none ∧
    after.registry.lookup "visits-1" = some visitsRequest.mapping ∧
    loaded Script.store after.store = .ok [] :=
  ⟨by decide +kernel, rfl, by decide +kernel, by decide +kernel⟩

end Quarry.Engine
