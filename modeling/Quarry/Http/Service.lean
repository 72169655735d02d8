/-
# The service

* `serve` — the response to a request.
* `answer` — what is done for each target.

A path that leads nowhere is not found; a method that its target does not take is not allowed. Only
then is anything looked at that the request brings along.
-/
import Quarry.Http.Bulk
import Quarry.Http.Cluster
import Quarry.Http.MultiSearch
import Quarry.Http.Route

namespace Quarry.Http

open Quarry.Engine Quarry.Template Quarry.Text

/-! ## Segments as names -/

/-- The response to a path with a segment that is not text, by the name of its place. -/
def unreadableSegment (place : String) : Response :=
  ⟨400, .text ("Invalid URL: Invalid UTF-8 in `" ++ place ++ "`"), []⟩

/-- Goes on with the name that a segment gives. -/
def withName (place : String) (s : Segment) (next : String → Handler Response) :
    Handler Response :=
  match s.decoded with
  | .ok name => next name
  | .error _ => return unreadableSegment place

/-- The name that a segment gives, if there is one and it is text. -/
def nameOf? (s : Option Segment) : Option String := s.bind fun s => s.decoded.toOption

/-! ## Single answers -/

/-- What is said when something was done. -/
def acknowledgedJson : Json := .object [("acknowledged", .bool true)]

/-- Mappings by their names. -/
def mappingsJson (entries : List (String × Mapping)) : Json :=
  .object (Named.mapValues Mapping.toJson (Named.ofList entries))

/-- Makes an index, unless it is there. -/
def answerIndex (index : String) : Handler Response := do
  let _ ← Handler.ofEngine (createIndex index)
  return .ofJson 200 (.object [("acknowledged", .bool true), ("shards_acknowledged", .bool true),
    ("index", .string index)])

/-- Puts a document into an index. -/
def answerDocument (index : String) (body : List UInt8) : Handler Response := do
  let id ← putDocument index body
  return .ofJson 201 (.object (createdMembers index id))

/-- Searches the first index of a list. -/
def answerSearch (indices : String) (body : List UInt8) : Handler Response := do
  let r ← Handler.ofEngine (searchBody (firstEntry indices) body)
  return .ofJson 200 r.toJson

/-- Sets up a template. -/
def answerPutTemplate (name : String) (body : List UInt8) : Handler Response := do
  let r ← Handler.orRefuse ((TemplateRequest.ofBytes body).mapError .template)
  let _ ← Handler.ofEngine (putTemplate name r)
  return .ofJson 200 acknowledgedJson

/-- Shows a template. -/
def answerGetTemplate (name : String) : Handler Response := do
  let templates ← Handler.ofEngine Engine.registry
  match templates.get? name with
  | some m => return .ofJson 200 (mappingsJson [(name, m)])
  | none => return .ofJson 404 (mappingsJson [])

/-- Shows the mapping that applies to an index. -/
def answerMapping (index : String) : Handler Response := do
  let templates ← Handler.ofEngine Engine.registry
  return .ofJson 200 (mappingsJson ((templates.lookup index).map fun m => (index, m)).toList)

/-! ## Requests -/

/-- What is done for a target. -/
def answer (t : Target) (method : String) (body : List UInt8) : Handler Response :=
  match t with
  | .root => return .ofJson 200 rootJson
  | .health => do
    let tables ← Handler.ofEngine (Engine.call .listTables)
    return .ofJson 200 (healthJson tables.length)
  | .catalog => do
    let indices ← Handler.ofEngine listIndices
    return .ofJson 200 (catalogJson indices)
  | .templates => do
    let templates ← Handler.ofEngine Engine.registry
    return .ofJson 200 (mappingsJson templates.toList)
  | .template s => withName "name" s fun name =>
    if method = "PUT" then answerPutTemplate name body else answerGetTemplate name
  | .multiSearch s => do return .ofJson 200 (← answerMultiSearch (nameOf? s) body)
  | .bulk s => do return .ofJson 200 (← answerBulk (nameOf? s) body)
  | .index s => withName "index" s answerIndex
  | .document s => withName "index" s fun index => answerDocument index body
  | .creation s => withName "index" s fun index => answerDocument index body
  | .search s => withName "index" s fun index => answerSearch index body
  | .mapping s => withName "index" s answerMapping

/-- The response to a request. -/
def serve (r : Request) : Program Response :=
  match Target.ofPath? r.path with
  | none => return .notFound
  | some t =>
    if t.methods.contains r.method then do
      let response ← (answer t r.method r.body).respond
      return if r.method = "HEAD" then response.withoutBody else response
    else return .methodNotAllowed t.methods

end Quarry.Http
