/-
# Responses to searches

* `Hit` — a document found. `SearchResponse` — hits and results of aggregations.
* `SearchResponse.toJson` — the response as it is returned.
* `hitOfRow` — a hit from a row of the result of a statement.
-/
import Quarry.Document
import Quarry.Plan.Basic
import Quarry.Result.Assemble

namespace Quarry.Engine

open Quarry.Plan Quarry.Result Quarry.Template Quarry.Text

/-! ## Responses -/

/-- A document found. -/
structure Hit where
  index : String
  id : Int
  source : Json

/-- The answer to a search. -/
structure SearchResponse where
  hits : List Hit
  /-- The results of aggregations by their labels. -/
  aggregations : List (String × Aggregation)

/-- The account of how many parts of an index took part. -/
def shardsJson : Json :=
  .object [("total", .ofNat 1), ("successful", .ofNat 1), ("skipped", .ofNat 0),
    ("failed", .ofNat 0)]

/-- A hit as it is returned. -/
def Hit.toJson (h : Hit) : Json :=
  .object [("_index", .string h.index), ("_id", .string (Digits.ofInt h.id)), ("id", .ofInt h.id),
    ("_source", h.source)]

/-- A response as it is returned. The total counts the hits that are returned. -/
def SearchResponse.toJson (r : SearchResponse) : Json :=
  .object ([("took", .ofNat 0), ("timed_out", .bool false), ("_shards", shardsJson),
    ("hits", .object [("total", .ofNat r.hits.length), ("hits", .array (r.hits.map Hit.toJson))])] ++
    if r.aggregations.isEmpty then []
    else [("aggregations",
      .object (r.aggregations.map fun (label, a) => (label, Aggregation.toJson a)))])

/-! ## Hits -/

/-- The hit of a row, with its dates as the mapping of its index says. -/
def hitOfRow (index : String) (mapping : Option Mapping) (row : Row) : Except Error Hit := do
  let id ← match (row.get? hitNumber).bind Cell.toInt? with
    | some id => pure id
    | none => throw (.rowShape (.incompleteHit hitNumber))
  let content ← match (row.get? hitDocument).bind Cell.text? with
    | some content => pure content
    | none => throw (.rowShape (.incompleteHit hitDocument))
  let stored ← (Json.ofText content).mapError fun e => .storage (.unreadableDocument id e)
  let source ← readDocument mapping stored
  return ⟨index, id, source⟩

/-- The hits of rows, in their order. -/
def hitsOfRows (index : String) (mapping : Option Mapping) : List Row → Except Error (List Hit)
  | [] => .ok []
  | row :: rest => do
    let hit ← hitOfRow index mapping row
    let hits ← hitsOfRows index mapping rest
    return hit :: hits

end Quarry.Engine
