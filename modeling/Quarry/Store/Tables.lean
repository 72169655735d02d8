/-
# A store of tables

* `Tables` — tables of numbered documents, and templates.
* `Tables.store` — how they answer.

Tables are used under their names in any case of ASCII letters, but a table exists only under its
very name.
-/
import Quarry.Sql.Evaluate
import Quarry.Store.Basic

namespace Quarry.Store

open Quarry.Json Quarry.Sql Quarry.Template Quarry.Request

/-! ## Tables -/

/-- A table of documents in the order of their numbers. -/
structure Table where
  name : String
  rows : List TableRow
  deriving DecidableEq, Repr

/-- A template as it is kept. -/
structure TemplateRow where
  name : String
  pattern : String
  /-- The text of the date fields. -/
  body : String
  deriving DecidableEq, Repr

/-- Tables in the order in which they were made, and templates in the order in which their names
were first used. -/
structure Tables where
  tables : List Table := []
  templates : List TemplateRow := []
  deriving DecidableEq, Repr

/-- The table of the templates, which is always there. -/
def templatesTable : String := "__templates"

/-- The tables that list the other tables. -/
def catalogueTables : List String := ["sqlite_master", "sqlite_schema"]

/-- Whether a name is kept for internal use. -/
def isReserved (name : String) : Bool :=
  ['s', 'q', 'l', 'i', 't', 'e', '_'].isPrefixOf (asciiLower name).toList

namespace Tables

/-- The table known by a name. -/
def find? (t : Tables) (name : String) : Option Table :=
  t.tables.find? fun table => sameName table.name name

/-- The rows of the table known by a name. -/
def rows? (t : Tables) (name : String) : Option (List TableRow) := (t.find? name).map Table.rows

/-- Whether there is a table of very this name. -/
def contains (t : Tables) (name : String) : Bool :=
  name == templatesTable || t.tables.any fun table => table.name == name

/-- The number of the next document of a table. -/
def nextId (rows : List TableRow) : Nat := (rows.getLast?.map TableRow.id).getD 0 + 1

/-- Puts a row into the table known by a name. -/
def append (name : String) (row : TableRow) : List Table → List Table
  | [] => []
  | table :: rest =>
    if sameName table.name name then { table with rows := table.rows ++ [row] } :: rest
    else table :: append name row rest

/-- Whether a name can stand in a statement. -/
def isWritable (name : String) : Bool := !name.toList.contains (Char.ofNat 0)

/-- Puts a document into a table, and returns its number. -/
def insert (t : Tables) (name document : String) : Except Failure (Nat × Tables) :=
  match t.find? name with
  | none => .error (.noSuchTable name)
  | some table =>
    match Verbatim.ofText? document with
    | none => .error .malformedDocument
    | some v =>
      let id := nextId table.rows
      .ok (id, { t with tables := append name ⟨id, v.text⟩ t.tables })

/-- Makes a table, unless one is known by the name. -/
def create (t : Tables) (name : String) : Except Failure Tables :=
  if isReserved name then .error (.reservedName name)
  else if !isWritable name then .error .incompleteStatement
  else if (t.find? name).isSome || sameName name templatesTable then .ok t
  else .ok { t with tables := t.tables ++ [⟨name, []⟩] }

/-- The names of the tables in ascending order. -/
def names (t : Tables) : List String :=
  sortStable (fun a b => a < b) (t.tables.map Table.name)

/-- The number of rows of the table known by a name. -/
def count (t : Tables) (name : String) : Except Failure Nat :=
  match t.find? name with
  | some table => .ok table.rows.length
  | none =>
    if sameName name templatesTable then .ok t.templates.length
    else if catalogueTables.any (sameName name) then .ok (t.tables.length + 1)
    else .error (.noSuchTable name)

/-! ## Templates -/

/-- Puts a row in the place of those with its name, or at the end if there are none. -/
def keep (row : TemplateRow) (rows : List TemplateRow) : List TemplateRow :=
  if rows.any fun other => other.name == row.name then
    rows.map fun other => if other.name == row.name then row else other
  else rows ++ [row]

/-- Keeps a mapping under a name. -/
def saveTemplate (t : Tables) (name : String) (m : Mapping) : Except Failure Tables :=
  match Verbatim.ofText? m.propertiesJson.text with
  | none => .error .malformedDocument
  | some v => .ok { t with templates := keep ⟨name, m.pattern, v.text⟩ t.templates }

/-- The name and mapping that a row keeps. -/
def templateOfRow (row : TemplateRow) : Except StorageError (String × Mapping) :=
  match Mapping.ofTexts row.pattern row.body with
  | .ok m => .ok (row.name, m)
  | .error e =>
    .error (.reported ("template '" ++ row.name ++ "' has a corrupt body: " ++ e.message))

/-- The names and mappings that are kept, in their order. -/
def loadTemplates (t : Tables) : Except StorageError (List (String × Mapping)) :=
  t.templates.mapM templateOfRow

/-! ## Answers -/

/-- A failure as the account of a store. -/
def report {β : Type} (x : Except Failure β) : Except StorageError β :=
  x.mapError fun e => .reported e.message

/-- How tables answer. -/
def perform {β : Type} : StoreCall β → Tables → Except StorageError β × Tables
  | .execute s, t => (report (Statement.run t.rows? s), t)
  | .insert table document, t =>
    match t.insert table document with
    | .ok (id, t) => (.ok id, t)
    | .error e => (report (.error e), t)
  | .tableExists table, t => (.ok (t.contains table), t)
  | .createTable table, t =>
    match t.create table with
    | .ok t => (.ok (), t)
    | .error e => (report (.error e), t)
  | .listTables, t => (.ok t.names, t)
  | .count table, t => (report (t.count table), t)
  | .loadTemplates, t => (t.loadTemplates, t)
  | .saveTemplate name m, t =>
    match t.saveTemplate name m with
    | .ok t => (.ok (), t)
    | .error e => (report (.error e), t)

/-- The store of tables. -/
def store : Store Tables := ⟨perform⟩

end Tables

end Quarry.Store
