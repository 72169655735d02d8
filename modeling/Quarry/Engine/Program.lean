/-
# Programs over a store

What the engine does is a sequence of single steps: calls on the store, and uses of the registry of
templates. Each step happens at once; between two steps of one program those of others may happen.

* `Program` — the steps of an activity, each chosen by the answers before it.
* `World` — a store and a registry. `Program.run` — an activity by itself.
* `Engine` — programs that may end with an error.
-/
import Quarry.Store.Basic
import Quarry.Template.Registry

namespace Quarry

namespace Engine

open Quarry.Store Quarry.Template

/-! ## Programs -/

/-- The steps of an activity that ends with a value of type `α`. -/
inductive Program (α : Type) : Type 1 where
  | done (a : α)
  /-- Calls the store. -/
  | call {β : Type} (c : StoreCall β) (next : Except StorageError β → Program α)
  /-- Takes the registry as it is. -/
  | registry (next : Registry → Program α)
  /-- Puts a mapping under a name into the registry. -/
  | register (name : String) (m : Mapping) (next : Except Error Unit → Program α)

namespace Program

variable {α β σ : Type}

/-- One program after another. -/
def bind (p : Program α) (f : α → Program β) : Program β :=
  match p with
  | .done a => f a
  | .call c next => .call c fun r => (next r).bind f
  | .registry next => .registry fun r => (next r).bind f
  | .register name m next => .register name m fun r => (next r).bind f

instance : Monad Program where
  pure := .done
  bind := bind

/-! ## Running -/

/-- A store and a registry. -/
structure World (σ : Type) where
  store : σ
  registry : Registry := {}

/-- Puts a mapping under a name into a registry, which stays as it is if that fails. -/
def registerIn (r : Registry) (name : String) (m : Mapping) : Except Error Unit × Registry :=
  match r.put name m with
  | .ok r => (.ok (), r)
  | .error e => (.error e, r)

/-- Runs a program by itself. -/
def run (s : Store σ) : Program α → World σ → α × World σ
  | .done a, w => (a, w)
  | .call c next, w =>
    let (r, store) := s.perform c w.store
    (next r).run s { w with store := store }
  | .registry next, w => (next w.registry).run s w
  | .register name m next, w =>
    let (r, templates) := registerIn w.registry name m
    (next r).run s { w with registry := templates }

end Program

/-! ## Programs that may fail -/

end Engine

/-- Programs that may end with an error. -/
abbrev Engine := ExceptT Error Engine.Program

namespace Engine

open Quarry.Store Quarry.Template

variable {α β : Type}

/-- Calls the store. -/
def call (c : StoreCall β) : Engine β :=
  ExceptT.mk (.call c fun r => .done (r.mapError .storage))

/-- Takes the registry as it is. -/
def registry : Engine Registry := ExceptT.mk (.registry fun r => .done (.ok r))

/-- Puts a mapping under a name into the registry. -/
def register (name : String) (m : Mapping) : Engine Unit :=
  ExceptT.mk (.register name m fun r => .done r)

/-- Goes on with a value, or ends with an error. -/
def orFail (x : Except Error α) : Engine α := ExceptT.mk (.done x)

/-- Runs a program that may fail to its end, and goes on in either case. -/
def attempt (p : Engine α) : Program (Except Error α) := p.run

end Engine

end Quarry
