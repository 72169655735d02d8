/-
# What changes of tables preserve

* `Changes.preserves` — what one change preserves holds after changes in a row.
* `Unchanged` — what a change leaves as it is under other names.
* `Grows` — rows and tables stay.
* `Spelled` — no table has the name of an index in another case.
* `HoldsDocuments` — the rows of an index hold documents that are read back.
-/
import Quarry.Proofs.Engine.Searches
import Quarry.Proofs.Json.Kept

namespace Quarry.Engine

open Quarry.Json Quarry.Sql Quarry.Store Quarry.Store.Tables

theorem Changes.preserves {index : String} {texts : String → Prop} {P : Tables → Prop}
    (hstep : ∀ t t', Change index texts t t' → P t → P t') {t t' : Tables}
    (h : Changes index texts t t') (ht : P t) : P t' := by
  induction h with
  | refl => exact ht
  | tail _ h ih => exact hstep _ _ h ih

theorem mem_names {t : Tables} {name : String} :
    name ∈ t.names ↔ ∃ table ∈ t.tables, table.name = name := by
  rw [names, mem_sortStable, List.mem_map]

/-! ## Other indices -/

/-- What is known of a table under a name is the same. -/
structure Unchanged (name : String) (t t' : Tables) : Prop where
  rows : t'.rows? name = t.rows? name
  contains : t'.contains name = t.contains name
  listed : name ∈ t'.names ↔ name ∈ t.names

theorem Unchanged.refl (name : String) (t : Tables) : Unchanged name t t := ⟨rfl, rfl, Iff.rfl⟩

theorem Unchanged.trans {name : String} {t t' t'' : Tables} (h : Unchanged name t t')
    (h' : Unchanged name t' t'') : Unchanged name t t'' :=
  ⟨h'.rows.trans h.rows, h'.contains.trans h.contains, h'.listed.trans h.listed⟩

/-- The names of tables of which one was made. -/
theorem mem_names_add {t : Tables} {index name : String} :
    name ∈ names { t with tables := t.tables ++ [⟨index, []⟩] } ↔ name ∈ t.names ∨ name = index := by
  simp [mem_names, or_and_right, exists_or, eq_comm]

theorem names_append (t : Tables) (index : String) (row : TableRow) :
    names { t with tables := append index row t.tables } = t.names := by
  rw [names, append_names, names]

/-- A change of a table changes nothing under names that differ by more than case. -/
theorem Change.unchanged {index name : String} {texts : String → Prop} {t t' : Tables}
    (h : Change index texts t t') (hne : sameName index name = false) : Unchanged name t t' := by
  have hname : index ≠ name := by
    rintro rfl
    rw [sameName_self] at hne
    cases hne
  cases h with
  | create h =>
    obtain ⟨-, -, ⟨-, rfl⟩ | ⟨-, -, rfl⟩⟩ := create_eq_ok.mp h
    · exact .refl name t'
    · refine ⟨?_, ?_, ?_⟩
      · rw [rows?, find?_add, hne]
        simp [rows?]
      · rw [contains_add, beq_eq_false_iff_ne.mpr hname, Bool.or_false]
      · rw [mem_names_add, or_iff_left hname.symm]
  | insert _ h =>
    obtain ⟨rows, v, -, -, -, rfl⟩ := insert_eq_ok.mp h
    refine ⟨?_, contains_append .., ?_⟩
    · rw [rows?_append, hne]
      rfl
    · rw [names_append]

/-! ## The same index -/

/-- Rows stay where they are, and tables where they are. -/
structure Grows (t t' : Tables) : Prop where
  rows : ∀ name rows, t.rows? name = some rows → ∃ more, t'.rows? name = some (rows ++ more)
  contains : ∀ name, t.contains name = true → t'.contains name = true

theorem Grows.refl (t : Tables) : Grows t t where
  rows name rows hrows := ⟨[], by rw [List.append_nil, hrows]⟩
  contains name hname := hname

theorem Grows.trans {t t' t'' : Tables} (h : Grows t t') (h' : Grows t' t'') : Grows t t'' where
  rows name rows hrows := by
    obtain ⟨more, hmore⟩ := h.rows name rows hrows
    obtain ⟨last, hlast⟩ := h'.rows name _ hmore
    exact ⟨more ++ last, by rw [hlast, List.append_assoc]⟩
  contains name hname := h'.contains name (h.contains name hname)

theorem Change.grows {index : String} {texts : String → Prop} {t t' : Tables}
    (h : Change index texts t t') : Grows t t' := by
  cases h with
  | create h =>
    obtain ⟨-, -, ⟨-, rfl⟩ | ⟨-, -, rfl⟩⟩ := create_eq_ok.mp h
    · exact .refl t'
    · refine ⟨fun name rows hrows => ⟨[], ?_⟩, fun name hname => ?_⟩
      · obtain ⟨table, hfind, rfl⟩ := Option.map_eq_some_iff.mp hrows
        rw [rows?, find?_add, hfind, List.append_nil]
        rfl
      · rw [contains_add, hname, Bool.true_or]
  | insert _ h =>
    obtain ⟨rows, v, -, -, -, rfl⟩ := insert_eq_ok.mp h
    refine ⟨fun name rows hrows => ?_, fun name hname => (contains_append ..).trans hname⟩
    rw [rows?_append]
    split_ifs with hsame
    · rw [rows?, find?_congr hsame, ← rows?, hrows]
      exact ⟨_, rfl⟩
    · exact ⟨[], by rw [List.append_nil, hrows]⟩

/-! ## What an index holds -/

/-- The tables whose names are that of an index in some case have this very name. -/
def Spelled (index : String) (t : Tables) : Prop :=
  ∀ name ∈ t.names, sameName name index = true → name = index

/-- The rows of an index hold documents that are read back. -/
def HoldsDocuments (index : String) (t : Tables) : Prop :=
  ∀ rows, t.rows? index = some rows → ∀ row ∈ rows, ∃ d, HoldsDocument row d

section

variable {index : String} {texts : String → Prop} {t t' : Tables}

theorem Change.spelled {written : String} (h : Change written texts t t')
    (hwritten : sameName written index = true → written = index) (ht : Spelled index t) :
    Spelled index t' := by
  intro name hname hsame
  cases h with
  | create h =>
    obtain ⟨-, -, ⟨-, rfl⟩ | ⟨-, -, rfl⟩⟩ := create_eq_ok.mp h
    · exact ht name hname hsame
    · rcases mem_names_add.mp hname with hname | rfl
      · exact ht name hname hsame
      · exact hwritten hsame
  | insert _ h =>
    obtain ⟨rows, v, -, -, -, rfl⟩ := insert_eq_ok.mp h
    rw [names_append] at hname
    exact ht name hname hsame

theorem Change.holdsDocuments (h : Change index texts t t')
    (htexts : ∀ text, texts text → ∃ d : Json, d.IsReadBack ∧ text = d.text)
    (ht : HoldsDocuments index t) : HoldsDocuments index t' := by
  intro rows hrows row hrow
  cases h with
  | create h =>
    obtain ⟨-, -, ⟨-, rfl⟩ | ⟨hnone, -, rfl⟩⟩ := create_eq_ok.mp h
    · exact ht rows hrows row hrow
    · rw [rows?, find?_add, hnone, sameName_self] at hrows
      obtain rfl : [] = rows := Option.some.inj hrows
      cases hrow
  | insert htext h =>
    obtain ⟨d, hd, rfl⟩ := htexts _ htext
    obtain ⟨old, v, hold, hv, -, rfl⟩ := insert_eq_ok.mp h
    rw [rows?_append, if_pos (sameName_self index), hold] at hrows
    obtain rfl := Option.some.inj hrows
    rcases List.mem_append.mp hrow with hrow | hrow
    · exact ht old hold row hrow
    · rw [List.mem_singleton.mp hrow]
      exact ⟨d, hd, (Verbatim.of_ofText?_text hd.valid hv).2⟩

/-- A table that is found is there under its very name. -/
theorem Spelled.contains (ht : Spelled index t) {table : Table}
    (hfind : t.find? index = some table) : t.contains index = true := by
  rw [find?_eq] at hfind
  have hsame : isKnownAs index table = true := List.find?_some hfind
  have hmem := List.mem_of_find?_eq_some hfind
  have hname := ht table.name (mem_names.mpr ⟨table, hmem, rfl⟩) hsame
  rw [Tables.contains, Bool.or_eq_true, List.any_eq_true]
  exact .inr ⟨table, hmem, beq_iff_eq.mpr hname⟩

end

end Quarry.Engine
