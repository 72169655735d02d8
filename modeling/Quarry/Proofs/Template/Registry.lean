/-
# Registries as lists

What is known of a registry is the list of its names and mappings.

* `Registry.ext_toList` — registries with the same list are the same.
* `Registry.get?_eq_lookup` — the mapping under a name is what the list has under it.
* `Registry.put_eq_ok`, `Registry.put_eq_error` — a mapping is placed in the list if its pattern can
  be read.
-/
import Quarry.Proofs.Store.Placed
import Quarry.Template.Registry

namespace Quarry.Template

open Quarry.Store

/-- Whether the pattern of a mapping is a regular expression. -/
def Mapping.IsReadable (m : Mapping) : Prop := (Regex.ofText? m.pattern).isSome = true

instance (m : Mapping) : Decidable m.IsReadable := inferInstanceAs (Decidable (_ = true))

/-- The regular expression of a template is that of its pattern. -/
theorem ext_mapping {t u : Template} (hname : t.name = u.name) (hmapping : t.mapping = u.mapping) :
    t = u := by
  obtain ⟨name, m, regex, h⟩ := t
  obtain ⟨name', m', regex', h'⟩ := u
  obtain rfl : name = name' := hname
  obtain rfl : m = m' := hmapping
  obtain rfl : regex = regex' := Option.some.inj (h.symm.trans h')
  rfl

theorem ofMapping?_eq_some {name : String} {m : Mapping} {t : Template} :
    ofMapping? name m = some t ↔ t.name = name ∧ t.mapping = m := by
  unfold ofMapping?
  constructor
  · intro h
    split at h
    · cases h
      exact ⟨rfl, rfl⟩
    · cases h
  · rintro ⟨rfl, rfl⟩
    split
    · exact congrArg some (ext_mapping rfl rfl)
    · next h =>
      rw [t.regex_eq] at h
      cases h

theorem ofMapping?_eq_none {name : String} {m : Mapping} :
    ofMapping? name m = none ↔ ¬ m.IsReadable := by
  unfold ofMapping? Mapping.IsReadable
  split
  · next h => simp [h]
  · next h => simp [h]

namespace Registry

variable {r r' : Registry} {name : String} {m : Mapping}

/-- A registry is known by its list. -/
theorem ext_toList (h : r.toList = r'.toList) : r = r' := by
  obtain ⟨templates⟩ := r
  obtain ⟨templates'⟩ := r'
  have hinj : Function.Injective fun t : Template => (t.name, t.mapping) :=
    fun t u htu => ext_mapping (congrArg Prod.fst htu) (congrArg Prod.snd htu)
  exact congrArg Registry.mk (List.map_injective_iff.mpr hinj h)

/-- The mapping under a name is the one that the list has under it. -/
theorem get?_eq_lookup (r : Registry) (name : String) : r.get? name = r.toList.lookup name := by
  obtain ⟨templates⟩ := r
  unfold get? toList
  induction templates with
  | nil => rfl
  | cons t rest ih =>
    rw [List.map_cons, List.find?_cons]
    by_cases h : t.name = name
    · subst h
      rw [decide_eq_true rfl, lookup_cons_of_eq]
      rfl
    · rw [decide_eq_false h, lookup_cons_of_ne (Ne.symm h), ← ih]

theorem map_place (t : Template) (templates : List Template) :
    (place t templates).map (fun u => (u.name, u.mapping)) =
      replaceOrAppend t.name t.mapping (templates.map fun u => (u.name, u.mapping)) := by
  induction templates with
  | nil => rfl
  | cons u rest ih =>
    rw [place, List.map_cons, replaceOrAppend]
    split_ifs
    · rfl
    · rw [List.map_cons, ih]

/-- A mapping is placed under its name if its pattern can be read. -/
theorem put_eq_ok : r.put name m = .ok r' ↔
    m.IsReadable ∧ r'.toList = replaceOrAppend name m r.toList := by
  unfold put
  cases h : ofMapping? name m with
  | none => simp [ofMapping?_eq_none.mp h]
  | some t =>
    obtain ⟨rfl, rfl⟩ := ofMapping?_eq_some.mp h
    have hreadable : t.mapping.IsReadable := by
      by_contra hnot
      rw [ofMapping?_eq_none.mpr hnot] at h
      cases h
    have hlist := map_place t r.templates
    rw [Except.ok.injEq, and_iff_right hreadable]
    constructor
    · rintro rfl
      exact hlist
    · exact fun h' => ext_toList (hlist.trans h'.symm)

/-- It is refused otherwise. -/
theorem put_eq_error {e : Error} :
    r.put name m = .error e ↔ ¬ m.IsReadable ∧ e = .template m.pattern := by
  unfold put
  cases h : ofMapping? name m with
  | none => simp [ofMapping?_eq_none.mp h, eq_comm]
  | some t =>
    have hreadable : m.IsReadable := by
      by_contra hnot
      rw [ofMapping?_eq_none.mpr hnot] at h
      cases h
    simp [hreadable]

/-- A mapping whose pattern can be read is placed. -/
theorem exists_put (h : m.IsReadable) (r : Registry) (name : String) :
    ∃ r', r.put name m = .ok r' := by
  cases hput : r.put name m with
  | ok r' => exact ⟨r', rfl⟩
  | error e => exact absurd h (put_eq_error.mp hput).1

/-- What is placed in a list of mappings that can be read can be read. -/
theorem isReadable_of_mem_toList {e : String × Mapping} (h : e ∈ r.toList) : e.2.IsReadable := by
  obtain ⟨t, -, rfl⟩ := List.mem_map.mp h
  show (Regex.ofText? t.mapping.pattern).isSome = true
  rw [t.regex_eq]
  rfl

end Registry

end Quarry.Template
