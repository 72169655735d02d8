/-
# The steps of requests that write

A request that makes an index looks for its table, and makes one if there is none. A request that
puts a document into an index then takes the registry, and puts the document into the table.

* `Write.program` — the steps of a request. `Write.IsSound` — what it needs to be carried out.
* `Write.step_looking` and others — what each of the steps does.
* `writeDocument_writable` — what is kept of a document has a text that can be read.
-/
import Quarry.Proofs.Document
import Quarry.Proofs.Engine.Indices
import Quarry.Proofs.Engine.Interleaved
import Quarry.Proofs.Store.Numbered

namespace Quarry

open Quarry.Json Quarry.Outcome Quarry.Template

/-- What is kept of a document has a text that can be read, as the document has. -/
theorem writeDocument_writable {m : Option Mapping} {d stored : Json} (hd : d.Writable)
    (h : writeDocument m d = .ok stored) : stored.Writable := by
  unfold writeDocument convertDocument at h
  split at h
  · cases h
    exact hd
  · split at h
    · obtain ⟨kept, hkept, rfl⟩ := map_eq_ok.mp h
      cases hd with
      | object _ hfields =>
        refine .object kept (convertFields_preserves ?_ (mapError_eq_ok.mp hkept) hfields)
        intro name format v w hw hv
        rcases Date.same_or_text_of_toCanonical hw with rfl | ⟨s, rfl⟩
        · exact hv
        · exact .string s
    · cases h

namespace Engine

open Quarry.Engine.Program (World)
open Quarry.Sql Quarry.Store Quarry.Store.Tables

/-! ## Requests as programs -/

/-- What a request that writes is answered. -/
inductive Reply where
  /-- An index is there; whether it is new. -/
  | made (isNew : Bool)
  /-- A document has a number. -/
  | indexed (id : Int)
  deriving DecidableEq, Repr

/-- Makes a table, and says that it is new. -/
def makeTable (index : String) : Engine Bool := do
  call (.createTable index)
  return true

/-- Puts a document into a table once this has been made. -/
def putOnce (made : Engine Bool) (index : String) (d : Json) : Engine Int := do
  let _ ← made
  let templates ← registry
  let stored ← orFail (writeDocument (templates.lookup index) d)
  call (.insert index stored.text)

namespace Write

/-- The steps of a request. -/
def program : Write → Program (Except Error Reply)
  | create index => attempt (do
    let isNew ← createIndex index
    return .made isNew)
  | put index d => attempt (do
    let id ← indexDocument index d
    return .indexed id)

/-- What is left to do of a request when this is left to do for its table. -/
def goOn (made : Engine Bool) : Write → Program (Except Error Reply)
  | create _ => attempt (do
    let isNew ← made
    return .made isNew)
  | put index d => attempt (do
    let id ← putOnce made index d
    return .indexed id)

/-- What is left to do when a document is to be put into a table as it is. -/
def inserting (index : String) (stored : Json) : Program (Except Error Reply) := attempt (do
  let id ← call (.insert index stored.text)
  return .indexed id)

/-- The name is that of an index, and is not kept for internal use; documents are objects that have
a text. -/
structure IsSound (x : Write) : Prop where
  name : isIndexName x.index = true
  notReserved : isReserved x.index = false
  documents : ∀ d ∈ x.documents, d.isObject = true ∧ d.Writable

theorem createIndex_eq {index : String} (h : isIndexName index = true) :
    createIndex index = (do
      let there ← call (.tableExists index)
      if there then return false else makeTable index) := by
  have hok : checkName index = .ok () := checkName_eq_ok.mpr h
  unfold createIndex
  rw [hok]
  rfl

theorem program_eq {x : Write} (h : x.IsSound) : x.program = x.goOn (createIndex x.index) := by
  cases x with
  | create index => rfl
  | put index d =>
    have hobject := (h.documents d (List.mem_singleton_self d)).1
    have hput : indexDocument index d = putOnce (createIndex index) index d := by
      unfold indexDocument
      rw [hobject]
      rfl
    unfold program goOn
    simp only [hput, Write.index]

/-! ## Steps -/

variable {w : World Tables} {x : Write}

/-- A call for the table is made first. -/
theorem goOn_call {β : Type} {c : StoreCall β} {f : β → Engine Bool} {b : β} {t : Tables}
    (h : Tables.store.perform c w.store = (.ok b, t)) (x : Write) :
    (x.goOn (call c >>= f)).step Tables.store w = (x.goOn (f b), { w with store := t }) := by
  have hstep : (x.goOn (call c >>= f)).step Tables.store w =
      (x.goOn (ExceptT.mk (.done ((Tables.store.perform c w.store).1.mapError .storage)) >>= f),
        { w with store := (Tables.store.perform c w.store).2 }) := by
    cases x <;> rfl
  rw [hstep, h]
  cases x <;> rfl

/-- The table is looked for. -/
theorem step_looking (h : x.IsSound) : x.program.step Tables.store w =
    (x.goOn (if w.store.contains x.index then pure false else makeTable x.index), w) := by
  rw [program_eq h, createIndex_eq h.name]
  exact goOn_call rfl x

/-- It is made. -/
theorem step_making {t : Tables} (h : w.store.create x.index = .ok t) :
    (x.goOn (makeTable x.index)).step Tables.store w =
      (x.goOn (pure true), { w with store := t }) := by
  refine goOn_call (b := ()) ?_ x
  unfold Tables.store Tables.perform
  simp only [h]

/-- The document is converted under the template that applies. -/
theorem step_choosing (index : String) (d : Json) (isNew : Bool) :
    ((put index d).goOn (pure isNew)).step Tables.store w =
      match writeDocument (w.registry.lookup index) d with
      | .ok stored => (inserting index stored, w)
      | .error e => (.done (.error e), w) := by
  have hstep : ((put index d).goOn (pure isNew)).step Tables.store w =
      (attempt (do
        let id ← orFail (writeDocument (w.registry.lookup index) d) >>= fun stored =>
          call (.insert index stored.text)
        return .indexed id), w) := rfl
  rw [hstep]
  cases writeDocument (w.registry.lookup index) d <;> rfl

/-- It is put into the table. -/
theorem step_inserting (index : String) (stored : Json) :
    (inserting index stored).step Tables.store w =
      match w.store.insert index stored.text with
      | .ok (id, t) => (.done (.ok (.indexed id)), { w with store := t })
      | .error e => (.done (.error (.storage (.reported e.message))), w) := by
  have hstep : (inserting index stored).step Tables.store w =
      (attempt (do
        let id ← ExceptT.mk (.done ((Tables.perform (.insert index stored.text) w.store).1.mapError
          .storage))
        return .indexed id),
        { w with store := (Tables.perform (.insert index stored.text) w.store).2 }) := rfl
  rw [hstep, Tables.perform]
  cases w.store.insert index stored.text <;> rfl

end Write

end Engine

end Quarry
