/-
# A store that follows a script

A store whose answers to statements are laid down in advance, whose calls can be made to fail, and
which keeps a record of the calls.

* `CallRecord` — a call that was made.
* `Script` — the state of such a store. `Script.store` — how it answers.
-/
import Quarry.Sql.Order
import Quarry.Store.Basic

namespace Quarry.Store

open Quarry.Result Quarry.Sql Quarry.Template

/-- A call that was made. -/
inductive CallRecord where
  | execute (sql : String)
  | insert (table document : String)
  | tableExists (table : String)
  | createTable (table : String)
  | listTables
  | count (table : String)
  | loadTemplates
  | saveTemplate (name : String) (m : Mapping)
  deriving DecidableEq, Repr

/-- The record of a call. -/
def StoreCall.record {β : Type} : StoreCall β → CallRecord
  | .execute s => .execute (Statement.sql s)
  | .insert table document => .insert table document
  | .tableExists table => .tableExists table
  | .createTable table => .createTable table
  | .listTables => .listTables
  | .count table => .count table
  | .loadTemplates => .loadTemplates
  | .saveTemplate name m => .saveTemplate name m

/-- The name of a kind of call. -/
def CallRecord.name : CallRecord → String
  | .execute _ => "execute"
  | .insert .. => "insert"
  | .tableExists _ => "table_exists"
  | .createTable _ => "create_table"
  | .listTables => "list_tables"
  | .count _ => "count"
  | .loadTemplates => "load_templates"
  | .saveTemplate .. => "save_template"

/-- A script with what has become of it. -/
structure Script where
  /-- The numbers of documents of the tables. -/
  tables : List (String × Nat) := []
  templates : List (String × Mapping) := []
  /-- The answers to the statements to come: rows, or the account of a failure. -/
  results : List (Except String (List Row)) := []
  /-- The accounts of the failures of kinds of calls. -/
  failures : List (String × String) := []
  /-- The calls made so far, last first. -/
  record : List CallRecord := []

namespace Script

/-- The number of documents of a table. -/
def countOf (s : Script) (table : String) : Nat := (s.tables.lookup table).getD 0

/-- The next answer to a statement; after the last, no rows. -/
def nextResult (s : Script) : Except StorageError (List Row) × Script :=
  match s.results with
  | [] => (.ok [], s)
  | .ok rows :: rest => (.ok rows, { s with results := rest })
  | .error text :: rest => (.error (.reported text), { s with results := rest })

/-- The answer to a call that is not made to fail. -/
def reply {β : Type} : StoreCall β → Script → Except StorageError β × Script
  | .execute _, s => s.nextResult
  | .insert table _, s =>
    let n := s.countOf table + 1
    (.ok n, { s with tables := replaceOrAppend table n s.tables })
  | .tableExists table, s => (.ok (s.tables.lookup table).isSome, s)
  | .createTable table, s =>
    (.ok (), { s with tables := replaceOrAppend table (s.countOf table) s.tables })
  | .listTables, s => (.ok (sortStable (fun a b => a < b) (s.tables.map Prod.fst)), s)
  | .count table, s => (.ok (s.countOf table), s)
  | .loadTemplates, s => (.ok s.templates, s)
  | .saveTemplate name m, s =>
    (.ok (), { s with templates := replaceOrAppend name m s.templates })

/-- The answer to a call, which is put on record. -/
def perform {β : Type} (c : StoreCall β) (s : Script) : Except StorageError β × Script :=
  let s := { s with record := c.record :: s.record }
  match s.failures.lookup c.record.name with
  | some text => (.error (.reported text), s)
  | none => reply c s

/-- The store that follows a script. -/
def store : Store Script := ⟨perform⟩

end Script

end Quarry.Store
