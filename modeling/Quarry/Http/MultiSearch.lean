/-
# Several searches at once

The body is a sequence of lines in pairs: which index to search, and the search. Blank lines are
passed over.

* `SearchHeader` — the first line of a pair. `SearchHeader.target` — the index it leads to.
* `parseSearches` — the pairs of lines.
* `performSearches` — the searches one after another, each with its own outcome.
* `answerMultiSearch` — the answer.
-/
import Quarry.Http.Handler
import Quarry.Text.Split

namespace Quarry.Http

open Quarry.Engine Quarry.Json Quarry.Text

/-! ## Headers -/

/-- How indices are named: in one text, or in a list. -/
inductive IndexTarget where
  | one (name : String)
  | many (names : List String)
  deriving DecidableEq, Repr

/-- The first name, if there is any. -/
def IndexTarget.first? : IndexTarget → Option String
  | .one name => some name
  | .many names => names.head?

/-- Which index to search. -/
structure SearchHeader where
  index : Option IndexTarget := none
  indices : Option (List String) := none
  deriving DecidableEq, Repr

/-- Reads the names of indices. The value is read in full before it is looked at. -/
def decodeIndexTarget : Decoder IndexTarget := fun o => do
  let o ← orMalformed o.buffered
  match Decoder.string o, Decoder.list Decoder.string o with
  | .ok name, _ => return .one name
  | .error _, .ok names => return .many names
  | .error _, .error _ => throw (.noVariant "IndexTarget")

namespace SearchHeader

/-- A header as a record. -/
def record : Record SearchHeader where
  name := "MSearchHeader"
  fields := ["index", "indices"]
  required := []
  start := {}
  set name o h :=
    match name with
    | "index" => (Decoder.optional decodeIndexTarget o).map fun v => { h with index := v }
    | _ => (Decoder.optional (Decoder.list Decoder.string) o).map fun v =>
      { h with indices := v }

/-- Reads the line of a header. -/
def parse (line : String) : Except BodyError SearchHeader :=
  (decodeText record.decode (Utf8.encode line)).mapError .header

/-- The names that a header gives. -/
def named (h : SearchHeader) : Option String :=
  match h.index with
  | some target => target.first?
  | none => h.indices.bind List.head?

/-- The index that a header leads to, or else the one given. -/
def target (h : SearchHeader) (index : Option String) : Option String :=
  (h.named.orElse fun _ => index).map firstEntry

end SearchHeader

/-! ## Searches -/

/-- The pairs of lines, of which there must be an even number. -/
def parsePairs : List String → Except BodyError (List (SearchHeader × String))
  | header :: search :: rest => do
    let header ← SearchHeader.parse header
    let pairs ← parsePairs rest
    return (header, search) :: pairs
  | _ => .ok []

/-- The searches of a text. -/
def parseSearches (text : String) : Except BodyError (List (SearchHeader × String)) :=
  let lines := contentLines text
  if lines.length % 2 = 0 then parsePairs lines else .error .unpaired

/-- Searches an index. -/
def searchIn (index : Option String) (search : String) : Handler SearchResponse :=
  match index with
  | some index => Handler.ofEngine (searchBody index (Utf8.encode search))
  | none => Handler.orRefuse (.error .noIndex)

/-- Searches one after another. -/
def performSearches (index : Option String) :
    List (SearchHeader × String) → Program (List (Except Failure SearchResponse))
  | [] => return []
  | (header, search) :: rest => do
    let r ← (searchIn (header.target index) search).attempt
    let rs ← performSearches index rest
    return r :: rs

/-! ## The answer -/

/-- The outcome of one search as it is returned. -/
def searchItemJson : Except Failure SearchResponse → Json
  | .ok r => r.toJson
  | .error f => .object [("error", f.report.short), ("status", .ofNat f.report.status)]

/-- The outcomes of searches as they are returned. -/
def multiSearchJson (rs : List (Except Failure SearchResponse)) : Json :=
  .object [("took", .ofNat 0), ("responses", .array (rs.map searchItemJson))]

/-- Answers several searches. -/
def answerMultiSearch (index : Option String) (body : List UInt8) : Handler Json := do
  let text ← Handler.orRefuse (textOfBody body)
  let searches ← Handler.orRefuse (parseSearches text)
  let rs ← ExceptT.lift (performSearches index searches)
  return multiSearchJson rs

end Quarry.Http
