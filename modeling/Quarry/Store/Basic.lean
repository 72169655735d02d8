/-
# Stores

* `StoreCall` — what can be asked of a store, by the type of the answer.
* `Store` — how a store answers, and what becomes of it.

An index is a table of documents. Templates are kept beside the tables.
-/
import Quarry.Error
import Quarry.Sql.Expr
import Quarry.Template.Basic

namespace Quarry

namespace Store

open Quarry.Result Quarry.Sql Quarry.Template

/-- What can be asked of a store. -/
inductive StoreCall : Type → Type where
  /-- Runs a statement. -/
  | execute (s : Statement) : StoreCall (List Row)
  /-- Puts a document, given as text, into a table, and returns its number. -/
  | insert (table document : String) : StoreCall Int
  | tableExists (table : String) : StoreCall Bool
  /-- Makes a table, unless it is there. -/
  | createTable (table : String) : StoreCall Unit
  | listTables : StoreCall (List String)
  /-- Counts the documents of a table. -/
  | count (table : String) : StoreCall Nat
  | loadTemplates : StoreCall (List (String × Mapping))
  /-- Keeps a mapping under a name, in place of one already there. -/
  | saveTemplate (name : String) (m : Mapping) : StoreCall Unit

end Store

/-- How a store of states of type `σ` answers. -/
structure Store (σ : Type) where
  perform : {β : Type} → Store.StoreCall β → σ → Except StorageError β × σ

namespace Store

/-- Puts something in place of the first entry with its name, or at the end. -/
def replaceOrAppend {α : Type} (name : String) (a : α) : List (String × α) → List (String × α)
  | [] => [(name, a)]
  | (other, b) :: rest =>
    if other = name then (name, a) :: rest else (other, b) :: replaceOrAppend name a rest

end Store

end Quarry
