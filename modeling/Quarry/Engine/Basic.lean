/-
# The search engine

* `createIndex`, `indexDocument` — making an index, and putting a document into it.
* `search`, `searchBody` — answering a request.
* `putTemplate`, `reloadTemplates` — templates.
* `listIndices` — the indices with their numbers of documents.

A request is read and planned before the store is asked anything.
-/
import Quarry.Engine.Program
import Quarry.Engine.Response
import Quarry.Plan.Compile

namespace Quarry.Engine

open Quarry.Plan Quarry.Request Quarry.Result Quarry.Store Quarry.Template

/-! ## Names of indices -/

/-- Whether a character may stand in the name of an index. -/
def isIndexChar (c : Char) : Bool := c.isAlphanum || c == '_' || c == '.' || c == '-'

/-- Whether a name can be that of an index: letters and digits of ASCII, `_`, `.` and `-`, and no
underscore at the start. -/
def isIndexName (name : String) : Bool :=
  !name.isEmpty && name.toList.all isIndexChar && name.toList.head? != some '_'

/-- Checks the name of an index. -/
def checkName (name : String) : Except Error Unit :=
  if isIndexName name then .ok () else .error (.invalidIndexName name)

/-! ## Writing -/

/-- Makes an index, and says whether it was not there before. -/
def createIndex (index : String) : Engine Bool := do
  orFail (checkName index)
  if ← call (.tableExists index) then return false
  call (.createTable index)
  return true

/-- Puts a document into an index, which is made if it is not there, and returns its number. -/
def indexDocument (index : String) (document : Json) : Engine Int := do
  if !document.isObject then throw (.decode .notAnObject)
  let _ ← createIndex index
  let templates ← registry
  let stored ← orFail (writeDocument (templates.lookup index) document)
  call (.insert index stored.text)

/-! ## Searching -/

/-- Runs the statements of aggregations, one after another. -/
def runAggregations : List AggregationNode → Engine (List (String × Aggregation))
  | [] => return []
  | n :: rest => do
    let rows ← call (.execute n.statement)
    let result ← orFail ((assembleAggregation n rows).mapError .rowShape)
    let results ← runAggregations rest
    return (n.label, result) :: results

/-- Answers a request. -/
def search (index : String) (r : SearchRequest) : Engine SearchResponse := do
  orFail (checkName index)
  let plan ← orFail (compile index r)
  if !(← call (.tableExists index)) then throw (.indexNotFound index)
  let templates ← registry
  let aggregations ← runAggregations plan.aggregations
  let rows ← call (.execute plan.hits)
  let hits ← orFail (hitsOfRows index (templates.lookup index) rows)
  return ⟨hits, aggregations⟩

/-- Reads and answers a request. -/
def searchBody (index : String) (body : List UInt8) : Engine SearchResponse := do
  let r ← orFail ((SearchRequest.ofBytes body).mapError .decode)
  search index r

/-! ## Templates -/

/-- Sets up a template, and keeps it in the store. -/
def putTemplate (name : String) (r : TemplateRequest) : Engine Mapping := do
  register name r.mapping
  call (.saveTemplate name r.mapping)
  return r.mapping

/-- Sets up templates as they were kept, one after another. -/
def restoreTemplates : List (String × Mapping) → Engine Unit
  | [] => return ()
  | (name, m) :: rest => do
    register name m
    restoreTemplates rest

/-- Sets up all templates that the store keeps, and returns their number. -/
def reloadTemplates : Engine Nat := do
  let stored ← call .loadTemplates
  restoreTemplates stored
  return stored.length

/-! ## Indices -/

/-- Counts the documents of some tables. -/
def countTables : List String → Engine (List (String × Nat))
  | [] => return []
  | name :: rest => do
    let n ← call (.count name)
    let counts ← countTables rest
    return (name, n) :: counts

/-- The indices with their numbers of documents. -/
def listIndices : Engine (List (String × Nat)) := do
  let names ← call .listTables
  countTables names

end Quarry.Engine
