/-
# Kept templates

What a store of tables keeps of a template, and what it loads.

* `saveTemplate_eq` — a mapping is always kept.
* `loadTemplates_saved` — it is loaded in the place of those with its name.
-/
import Quarry.Proofs.Outcome
import Quarry.Proofs.Store.Placed
import Quarry.Proofs.Template.Kept
import Quarry.Store.Tables

namespace Quarry.Store.Tables

open Quarry.Json Quarry.Outcome Quarry.Template

/-! ## Rows -/

/-- The row that keeps a mapping under a name. -/
def rowOf (name : String) (m : Mapping) : TemplateRow := ⟨name, m.pattern, m.propertiesJson.text⟩

/-- A row keeps a template. -/
def Keeps (row : TemplateRow) (e : String × Mapping) : Prop := templateOfRow row = .ok e

/-- A template is kept under its name. -/
theorem Keeps.name {row : TemplateRow} {e : String × Mapping} (h : Keeps row e) :
    e.1 = row.name := by
  unfold Keeps templateOfRow at h
  split at h
  · cases h
    rfl
  · cases h

theorem keeps_rowOf {m : Mapping} (h : m.Ordered) (name : String) :
    Keeps (rowOf name m) (name, m) := by
  unfold Keeps templateOfRow rowOf
  rw [Mapping.ofTexts_text h]

section

variable {rows : List TemplateRow} {l : List (String × Mapping)}

/-- Templates that rows keep have the names of the rows. -/
theorem names_of_keeps (h : List.Forall₂ Keeps rows l) :
    l.map Prod.fst = rows.map TemplateRow.name := by
  induction h with
  | nil => rfl
  | cons hkeeps _ ih => rw [List.map_cons, List.map_cons, hkeeps.name, ih]

/-- A row that is put among others keeps its template among theirs. -/
theorem keeps_keep (h : List.Forall₂ Keeps rows l) {row : TemplateRow} {m : Mapping}
    (hrow : Keeps row (row.name, m)) :
    List.Forall₂ Keeps (keep row rows) (replaceAll row.name m l) := by
  have hany : (rows.any fun other => other.name == row.name) = true ↔
      row.name ∈ l.map Prod.fst := by
    rw [names_of_keeps h, List.any_eq_true, List.mem_map]
    simp only [beq_iff_eq]
  unfold keep replaceAll
  by_cases hname : row.name ∈ l.map Prod.fst
  · rw [if_pos hname, if_pos (hany.mpr hname), List.forall₂_map_left_iff,
      List.forall₂_map_right_iff]
    refine h.imp fun other e hkeeps => ?_
    rw [hkeeps.name]
    by_cases hother : other.name = row.name
    · rw [if_pos hother, if_pos (beq_iff_eq.mpr hother)]
      exact hrow
    · rw [if_neg hother, if_neg (fun hbeq => hother (beq_iff_eq.mp hbeq))]
      exact hkeeps
  · rw [if_neg hname, if_neg (fun hthere => hname (hany.mp hthere))]
    exact List.rel_append h (.cons hrow .nil)

end

/-! ## Tables -/

variable {t : Tables} {l : List (String × Mapping)}

/-- Every mapping can be kept. -/
theorem saveTemplate_eq (t : Tables) (name : String) (m : Mapping) :
    t.saveTemplate name m = .ok { t with templates := keep (rowOf name m) t.templates } := by
  obtain ⟨v, hv, htext⟩ := m.ofText?_propertiesJson
  rw [saveTemplate, hv]
  simp only [rowOf, htext]

theorem perform_saveTemplate (t : Tables) (name : String) (m : Mapping) :
    store.perform (.saveTemplate name m) t =
      (.ok (), { t with templates := keep (rowOf name m) t.templates }) := by
  unfold store perform
  simp only [saveTemplate_eq]

theorem loadTemplates_eq_ok : t.loadTemplates = .ok l ↔ List.Forall₂ Keeps t.templates l :=
  (traverses_mapM templateOfRow).ok_iff

/-- A mapping that is kept is loaded in the place of those with its name. -/
theorem loadTemplates_saved (h : t.loadTemplates = .ok l) {name : String} {m : Mapping}
    (hm : m.Ordered) :
    loadTemplates { t with templates := keep (rowOf name m) t.templates } =
      .ok (replaceAll name m l) :=
  loadTemplates_eq_ok.mpr (keeps_keep (loadTemplates_eq_ok.mp h) (keeps_rowOf hm name))

end Quarry.Store.Tables
