/-
# Search requests

* `SearchRequest` — a query, a page, an order and aggregations.
* `SearchRequest.ofBytes` — reading the body of a request; an empty body asks for everything.
* `SearchRequest.ofJson` — reading a value.
* `SearchRequest.limit` — the number of hits that are returned at most.
-/
import Quarry.Request.Aggregate
import Quarry.Request.Query
import Quarry.Request.Sort

namespace Quarry.Request

open Quarry.Json

/-- The number of hits when a request does not say. -/
def defaultSize : Nat := 10

/-- A search request. -/
structure SearchRequest where
  query : Option Query := none
  size : Option Nat := none
  /-- The number of hits to leave out. -/
  start : Option Nat := none
  sort : List SortEntry := []
  aggs : Named Aggregate := []

/-- The number of hits that are returned at most. -/
def SearchRequest.limit (r : SearchRequest) : Nat := r.size.getD defaultSize

/-- A request as it is read, before the two names of aggregations are made one. -/
structure RawSearchRequest where
  request : SearchRequest := {}
  aggs : Option (Named Aggregate) := none
  aggregations : Option (Named Aggregate) := none

/-- The request with its aggregations. -/
def RawSearchRequest.settle (r : RawSearchRequest) : SearchRequest :=
  { r.request with aggs := pickAggregates r.aggs r.aggregations }

/-- A request as a record. -/
def RawSearchRequest.record : Record RawSearchRequest where
  name := "RawSearchRequest"
  fields := ["query", "size", "from", "sort", "aggs", "aggregations"]
  required := []
  start := {}
  set name o r :=
    let q := r.request
    match name with
    | "query" => (Decoder.optional Query.decode o).map fun v =>
      { r with request := { q with query := v } }
    | "size" => (Decoder.optional Decoder.size o).map fun v =>
      { r with request := { q with size := v } }
    | "from" => (Decoder.optional Decoder.size o).map fun v =>
      { r with request := { q with start := v } }
    | "sort" => (decodeSort o).map fun v => { r with request := { q with sort := v } }
    | "aggs" => (Decoder.optional (Decoder.namedOf Aggregate.decode) o).map fun v =>
      { r with aggs := v }
    | _ => (Decoder.optional (Decoder.namedOf Aggregate.decode) o).map fun v =>
      { r with aggregations := v }

namespace SearchRequest

/-- Reads a request. -/
def decode : Decoder SearchRequest := fun o =>
  (RawSearchRequest.record.decode o).map RawSearchRequest.settle

/-- Reads the body of a request. -/
def ofBytes (body : List UInt8) : Except DecodeError SearchRequest :=
  if body.all Text.isAsciiBlank then .ok {} else decodeText decode body

/-- Reads a request from a value. -/
def ofJson (v : Json) : Except DecodeError SearchRequest := decodeValue decode v

end SearchRequest

end Quarry.Request
