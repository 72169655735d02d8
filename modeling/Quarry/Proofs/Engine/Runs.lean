/-
# Runs over tables

What activities do when each runs by itself over a store of tables.

* `onTables` — the outcome of an activity, and the tables and registry after it.
* `onTables_bind` and others — runs of the parts of activities.
* `createIndex_onTables`, `indexDocument_onTables` — runs of the activities that write.
-/
import Mathlib.Logic.Relation
import Quarry.Engine.Basic
import Quarry.Proofs.Store.Tables

namespace Quarry.Engine

open Quarry.Engine.Program (World)
open Quarry.Json Quarry.Outcome Quarry.Plan Quarry.Request Quarry.Sql Quarry.Store
open Quarry.Store.Tables Quarry.Template

/-! ## Parts of activities -/

/-- A program goes on where the one before it ended. -/
theorem Program.run_bind {α β σ : Type} (s : Store σ) (p : Program α) (f : α → Program β)
    (w : World σ) : (p.bind f).run s w = (f (p.run s w).1).run s (p.run s w).2 := by
  induction p generalizing w with
  | done a => rfl
  | call c next ih => exact ih _ _
  | registry next ih => exact ih _ _
  | register name m next ih => exact ih _ _

/-- An activity goes on unless the one before it ended with an error. -/
theorem run_bind {α β σ : Type} (s : Store σ) (p : Engine α) (f : α → Engine β) (w : World σ) :
    (attempt (p >>= f)).run s w =
      match (attempt p).run s w with
      | (.ok a, w) => (attempt (f a)).run s w
      | (.error e, w) => (.error e, w) := by
  have hrun : (attempt (p >>= f)).run s w = ((attempt p).bind (ExceptT.bindCont f)).run s w := rfl
  rw [hrun, Program.run_bind]
  obtain ⟨x, w'⟩ := (attempt p).run s w
  cases x <;> rfl

/-- A mapping is put into the registry, which stays as it is if that fails. -/
theorem run_register {σ : Type} (s : Store σ) (name : String) (m : Mapping) (w : World σ) :
    (attempt (register name m)).run s w =
      match w.registry.put name m with
      | .ok r => (.ok (), { w with registry := r })
      | .error e => (.error e, w) := by
  have hrun : (attempt (register name m)).run s w =
      ((Program.registerIn w.registry name m).1,
        { w with registry := (Program.registerIn w.registry name m).2 }) := rfl
  rw [hrun, Program.registerIn]
  cases w.registry.put name m <;> rfl

/-- The outcome of an activity over tables, and the tables and registry after it. -/
def onTables {α : Type} (p : Engine α) (w : World Tables) : Except Error α × World Tables :=
  (attempt p).run Tables.store w

section

variable {α β : Type} (w : World Tables)

@[simp] theorem onTables_pure (a : α) : onTables (pure a) w = (.ok a, w) := rfl

@[simp] theorem onTables_throw (e : Error) : onTables (throw e : Engine α) w = (.error e, w) := rfl

@[simp] theorem onTables_orFail (x : Except Error α) : onTables (orFail x) w = (x, w) := rfl

@[simp] theorem onTables_registry : onTables registry w = (.ok w.registry, w) := rfl

theorem onTables_call (c : StoreCall β) :
    onTables (call c) w = ((Tables.perform c w.store).1.mapError .storage,
      { w with store := (Tables.perform c w.store).2 }) := rfl

/-- An activity goes on unless the one before it ended with an error. -/
theorem onTables_bind (p : Engine α) (f : α → Engine β) :
    onTables (p >>= f) w =
      match onTables p w with
      | (.ok a, w) => onTables (f a) w
      | (.error e, w) => (.error e, w) := by
  unfold onTables
  rw [run_bind]
  obtain ⟨x, w'⟩ := (attempt p).run Tables.store w
  cases x <;> rfl

theorem onTables_bind_ok {p : Engine α} {f : α → Engine β} {w v : World Tables} {a : α}
    (h : onTables p w = (.ok a, v)) : onTables (p >>= f) w = onTables (f a) v := by
  rw [onTables_bind, h]

theorem onTables_bind_error {p : Engine α} {f : α → Engine β} {w v : World Tables} {e : Error}
    (h : onTables p w = (.error e, v)) : onTables (p >>= f) w = (.error e, v) := by
  rw [onTables_bind, h]

end

/-- Hits are made of rows one by one. -/
theorem traverses_hitsOfRows (index : String) (mapping : Option Mapping) :
    Traverses (hitOfRow index mapping) (hitsOfRows index mapping) where
  nil := rfl
  cons _ _ := rfl

/-! ## Writing -/

variable {w w' : World Tables}

theorem checkName_eq_ok {index : String} {u : Unit} :
    checkName index = .ok u ↔ isIndexName index = true := by
  unfold checkName
  split_ifs with h <;> simp [h]

/-- Making an index leaves a table that is there, and makes one otherwise. -/
theorem createIndex_onTables (index : String) (w : World Tables) :
    onTables (createIndex index) w =
      match checkName index with
      | .error e => (.error e, w)
      | .ok () =>
        if w.store.contains index then (.ok false, w)
        else match w.store.create index with
          | .ok t => (.ok true, { w with store := t })
          | .error e => (.error (.storage (.reported e.message)), w) := by
  unfold createIndex
  cases hname : checkName index with
  | error e => exact onTables_bind_error rfl
  | ok u =>
    rw [onTables_bind_ok (v := w) (a := ()) rfl,
      onTables_bind_ok (v := w) (a := w.store.contains index) rfl]
    cases hthere : w.store.contains index with
    | true => rfl
    | false =>
      have hcall : onTables (call (.createTable index)) w =
          match w.store.create index with
          | .ok t => (.ok (), { w with store := t })
          | .error e => (.error (.storage (.reported e.message)), w) := by
        rw [onTables_call, Tables.perform]
        cases w.store.create index <;> rfl
      simp only [Bool.false_eq_true, ↓reduceIte]
      cases hcreate : w.store.create index with
      | error e =>
        rw [hcreate] at hcall
        exact onTables_bind_error hcall
      | ok t =>
        rw [hcreate] at hcall
        exact onTables_bind_ok hcall

/-- A document is put into an index once the index is made. -/
theorem indexDocument_onTables (index : String) (document : Json) (w : World Tables) :
    onTables (indexDocument index document) w =
      if document.isObject then
        match onTables (createIndex index) w with
        | (.error e, w) => (.error e, w)
        | (.ok _, w) =>
          match writeDocument (w.registry.lookup index) document with
          | .error e => (.error e, w)
          | .ok stored =>
            match w.store.insert index stored.text with
            | .ok (id, t) => (.ok id, { w with store := t })
            | .error e => (.error (.storage (.reported e.message)), w)
      else (.error (.decode .notAnObject), w) := by
  unfold indexDocument
  cases hobject : document.isObject with
  | false => rfl
  | true =>
    simp only [Bool.not_true, Bool.false_eq_true, ↓reduceIte]
    rw [onTables_bind]
    obtain ⟨made, w₁⟩ := onTables (createIndex index) w
    cases made with
    | error e => rfl
    | ok made =>
      simp only
      rw [onTables_bind_ok (onTables_registry w₁)]
      cases hstored : writeDocument (w₁.registry.lookup index) document with
      | error e => exact onTables_bind_error rfl
      | ok stored =>
        rw [onTables_bind_ok (v := w₁) (a := stored) rfl, onTables_call, Tables.perform]
        simp only
        cases w₁.store.insert index stored.text <;> rfl

/-- An object is put into an index that is made, as it is to be stored. -/
theorem indexDocument_of_insert {index : String} {document : Json}
    (hobject : document.isObject = true) {made : Bool} {w₁ : World Tables}
    (hcreated : onTables (createIndex index) w = (.ok made, w₁)) {stored : Json}
    (hstored : writeDocument (w₁.registry.lookup index) document = .ok stored) {id : Nat}
    {t : Tables} (hinsert : w₁.store.insert index stored.text = .ok (id, t)) :
    onTables (indexDocument index document) w = (.ok (id : Int), { w₁ with store := t }) := by
  rw [indexDocument_onTables, if_pos hobject, hcreated]
  simp only [hstored, hinsert]

/-! ## Changes of tables -/

/-- One change of the tables for an index: its table is made, or one of some texts is put into
it. -/
inductive Change (index : String) (texts : String → Prop) : Tables → Tables → Prop
  | create {t t' : Tables} (h : t.create index = .ok t') : Change index texts t t'
  | insert {t t' : Tables} {text : String} {id : Nat} (htext : texts text)
    (h : t.insert index text = .ok (id, t')) : Change index texts t t'

/-- Changes one after another. -/
abbrev Changes (index : String) (texts : String → Prop) : Tables → Tables → Prop :=
  Relation.ReflTransGen (Change index texts)

/-- Making an index changes its table only. -/
theorem createIndex_changes (index : String) (texts : String → Prop) (w : World Tables) :
    ∃ t, (onTables (createIndex index) w).2 = { w with store := t } ∧
      Changes index texts w.store t := by
  rw [createIndex_onTables]
  split
  · exact ⟨_, rfl, .refl⟩
  · split_ifs
    · exact ⟨_, rfl, .refl⟩
    · cases hcreate : w.store.create index with
      | error e => exact ⟨_, rfl, .refl⟩
      | ok t => exact ⟨t, rfl, .single (.create hcreate)⟩

/-- So does putting a document into it. -/
theorem indexDocument_changes (index : String) (document : Json) (w : World Tables) :
    ∃ t, (onTables (indexDocument index document) w).2 = { w with store := t } ∧
      Changes index (fun text => ∃ stored,
        writeDocument (w.registry.lookup index) document = .ok stored ∧ text = stored.text)
        w.store t := by
  rw [indexDocument_onTables]
  split_ifs
  · obtain ⟨t, ht, hchanges⟩ := createIndex_changes index (fun text => ∃ stored,
      writeDocument (w.registry.lookup index) document = .ok stored ∧ text = stored.text) w
    generalize onTables (createIndex index) w = outcome at ht ⊢
    obtain ⟨made, w₁⟩ := outcome
    obtain rfl := ht
    cases made with
    | error e => exact ⟨t, rfl, hchanges⟩
    | ok made =>
      simp only
      split
      · exact ⟨t, rfl, hchanges⟩
      · next stored hstored =>
        cases hinsert : t.insert index stored.text with
        | error e => exact ⟨t, rfl, hchanges⟩
        | ok inserted =>
          exact ⟨_, rfl, hchanges.tail (.insert ⟨stored, hstored, rfl⟩ hinsert)⟩
  · exact ⟨_, rfl, .refl⟩

/-! ## Documents that were put into an index -/

/-- A document was put into an index once the index was made. -/
theorem exists_of_indexDocument {index : String} {document : Json} {id : Int}
    (h : onTables (indexDocument index document) w = (.ok id, w')) :
    ∃ made w₁ stored, ∃ n : Nat, ∃ t, onTables (createIndex index) w = (.ok made, w₁) ∧
      writeDocument (w₁.registry.lookup index) document = .ok stored ∧
      w₁.store.insert index stored.text = .ok (n, t) ∧ id = n ∧ w' = { w₁ with store := t } := by
  rw [indexDocument_onTables] at h
  generalize onTables (createIndex index) w = outcome at h ⊢
  obtain ⟨made, w₁⟩ := outcome
  split_ifs at h
  · cases made with
    | error e => cases h
    | ok made =>
      simp only at h
      cases hstored : writeDocument (w₁.registry.lookup index) document with
      | error e =>
        rw [hstored] at h
        cases h
      | ok stored =>
        simp only [hstored] at h
        cases hinsert : w₁.store.insert index stored.text with
        | error e =>
          rw [hinsert] at h
          cases h
        | ok inserted =>
          rw [hinsert] at h
          cases h
          exact ⟨made, w₁, stored, _, _, rfl, hstored, hinsert, rfl, rfl⟩
  · cases h

/-- It is the last row of the table, as its text is kept. -/
theorem rows?_of_insert {t t' : Tables} {index text : String} {n : Nat}
    (h : t.insert index text = .ok (n, t')) : ∃ rows v, Verbatim.ofText? text = some v ∧
      t'.rows? index = some (rows ++ [⟨n, v.text⟩]) := by
  obtain ⟨rows, v, hrows, hv, -, rfl⟩ := insert_eq_ok.mp h
  refine ⟨rows, v, hv, ?_⟩
  rw [rows?_append, if_pos (sameName_self index), hrows]
  rfl

/-- Making an index leaves the templates. -/
theorem registry_of_created {index : String} {made : Bool}
    (h : onTables (createIndex index) w = (.ok made, w')) : w'.registry = w.registry := by
  obtain ⟨t, ht, -⟩ := createIndex_changes index (fun _ => False) w
  rw [h] at ht
  rw [show w' = { w with store := t } from ht]

end Quarry.Engine
