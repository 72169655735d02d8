/-
# Queries

* `Query` — a query object. Several kinds of query may be given at once; `Query.clause` is the one
  that takes effect.
* `TermValue`, `MatchValue`, `RangeParams`, `BoolQuery`, `QueryString` — the kinds.
* `RangeParams.lower`, `RangeParams.upper` — the bounds that take effect.
* `Query.decode` — reading a query.
-/
import Quarry.Request.Bound
import Quarry.Request.Scalar

namespace Quarry.Request

open Quarry.Json

/-! ## Terms and matches -/

/-- What a field must equal. -/
structure TermValue where
  value : String := ""
  boost : Option String := none
  caseInsensitive : Option Bool := none
  deriving DecidableEq, Repr

/-- What a field must match. -/
structure MatchValue where
  query : String := ""
  fuzziness : Option String := none
  operator : Option String := none
  deriving DecidableEq, Repr

/-- A term that spells out its options. -/
def TermValue.record : Record TermValue where
  name := "VerboseTerm"
  fields := ["value", "boost", "case_insensitive"]
  required := ["value"]
  start := {}
  set name o t :=
    match name with
    | "value" => (scalarText o).map fun v => { t with value := v }
    | "boost" => (optionalScalarText o).map fun v => { t with boost := v }
    | _ => (Decoder.optional Decoder.boolean o).map fun v => { t with caseInsensitive := v }

/-- Reads a term. -/
def TermValue.decode : Decoder TermValue :=
  shorthand "a term value or a term object" (fun text => { value := text }) TermValue.record

/-- A match that spells out its options. -/
def MatchValue.record : Record MatchValue where
  name := "VerboseMatch"
  fields := ["query", "fuzziness", "operator"]
  required := ["query"]
  start := {}
  set name o m :=
    match name with
    | "query" => (scalarText o).map fun v => { m with query := v }
    | "fuzziness" => (optionalScalarText o).map fun v => { m with fuzziness := v }
    | _ => (Decoder.optional Decoder.string o).map fun v => { m with operator := v }

/-- Reads a match. -/
def MatchValue.decode : Decoder MatchValue :=
  shorthand "a match value or a match object" (fun text => { query := text }) MatchValue.record

/-! ## Ranges -/

/-- How a field stands to a bound. -/
inductive RangeOp where
  | gt
  | gte
  | lt
  | lte
  deriving DecidableEq, Repr

/-- The comparison sign. -/
def RangeOp.sign : RangeOp → String
  | .gt => ">"
  | .gte => ">="
  | .lt => "<"
  | .lte => "<="

/-- The bounds of a range and how to read them. -/
structure RangeParams where
  gt : Option Bound := none
  gte : Option Bound := none
  lt : Option Bound := none
  lte : Option Bound := none
  /-- The lower bound of old clients. -/
  lowerFrom : Option Bound := none
  /-- The upper bound of old clients. -/
  upperTo : Option Bound := none
  format : Option String := none
  includeLower : Option Bool := none
  includeUpper : Option Bool := none
  boost : Option String := none
  deriving DecidableEq, Repr

namespace RangeParams

/-- The lower bound that takes effect: `gte` before `gt` before the old form. -/
def lower (p : RangeParams) : Option (RangeOp × Bound) :=
  match p.gte, p.gt with
  | some b, _ => some (.gte, b)
  | none, some b => some (.gt, b)
  | none, none =>
    p.lowerFrom.map fun b => (if p.includeLower = some false then .gt else .gte, b)

/-- The upper bound that takes effect: `lte` before `lt` before the old form. -/
def upper (p : RangeParams) : Option (RangeOp × Bound) :=
  match p.lte, p.lt with
  | some b, _ => some (.lte, b)
  | none, some b => some (.lt, b)
  | none, none =>
    p.upperTo.map fun b => (if p.includeUpper = some false then .lt else .lte, b)

/-- A range as a record. -/
def record : Record RangeParams where
  name := "RangeParams"
  fields := ["gt", "gte", "lt", "lte", "from", "to", "format", "include_lower", "include_upper",
    "boost"]
  required := []
  start := {}
  set name o p :=
    let bound := Decoder.optional Bound.decode o
    match name with
    | "gt" => bound.map fun b => { p with gt := b }
    | "gte" => bound.map fun b => { p with gte := b }
    | "lt" => bound.map fun b => { p with lt := b }
    | "lte" => bound.map fun b => { p with lte := b }
    | "from" => bound.map fun b => { p with lowerFrom := b }
    | "to" => bound.map fun b => { p with upperTo := b }
    | "format" => (Decoder.optional Decoder.string o).map fun v => { p with format := v }
    | "include_lower" =>
      (Decoder.optional Decoder.boolean o).map fun v => { p with includeLower := v }
    | "include_upper" =>
      (Decoder.optional Decoder.boolean o).map fun v => { p with includeUpper := v }
    | _ => (optionalScalarText o).map fun v => { p with boost := v }

end RangeParams

/-! ## Free text -/

/-- A query in a language of its own, which is kept but has no effect. -/
structure QueryString where
  query : String := ""
  defaultField : Option String := none
  deriving DecidableEq, Repr

/-- A query string as a record. -/
def QueryString.record : Record QueryString where
  name := "QueryString"
  fields := ["query", "default_field"]
  required := []
  start := {}
  set name o q :=
    match name with
    | "query" => (Decoder.string o).map fun v => { q with query := v }
    | _ => (Decoder.optional Decoder.string o).map fun v => { q with defaultField := v }

/-! ## Queries -/

/-- Queries combined; only those under `must` take effect. -/
structure BoolQuery (Q : Type) where
  must : List Q := []
  should : List Q := []
  filter : List Q := []

/-- A query object. -/
structure Query where
  term : Option (Named TermValue) := none
  matching : Option (Named MatchValue) := none
  bool : Option (BoolQuery Query) := none
  range : Option (Named RangeParams) := none
  queryString : Option QueryString := none

/-- The kind of query that takes effect. -/
inductive Clause where
  | bool (b : BoolQuery Query)
  | term (t : Named TermValue)
  | matching (m : Named MatchValue)
  | range (r : Named RangeParams)
  /-- Nothing that restricts the documents is given. -/
  | matchAll

/-- The name of a kind of query. -/
def Clause.name : Clause → String
  | .bool _ => "bool"
  | .term _ => "term"
  | .matching _ => "match"
  | .range _ => "range"
  | .matchAll => "match_all"

/-- The kind that takes effect: `bool` before `term` before `match` before `range`. -/
def Query.clause (q : Query) : Clause :=
  match q.bool, q.term, q.matching, q.range with
  | some b, _, _, _ => .bool b
  | none, some t, _, _ => .term t
  | none, none, some m, _ => .matching m
  | none, none, none, some r => .range r
  | none, none, none, none => .matchAll

/-! ## Reading queries -/

/-- Reads one thing from an object, several from an array, and none from `null`. -/
def oneOrMany {α : Type} (d : Decoder α) : Decoder (List α) := fun o =>
  match o with
  | .null => .ok []
  | .object .. => (d o).map fun a => [a]
  | .array os ending => Decoder.items d os ending
  | _ => .error (o.mismatch "an object or an array of objects")

/-- Combined queries as a record, given how queries are read. -/
def BoolQuery.record (query : Decoder Query) : Record (BoolQuery Query) where
  name := "BoolQuery"
  fields := ["must", "should", "filter"]
  required := []
  start := {}
  set name o b :=
    match name with
    | "must" => (oneOrMany query o).map fun v => { b with must := v }
    | "should" => (oneOrMany query o).map fun v => { b with should := v }
    | _ => (Decoder.list query o).map fun v => { b with filter := v }

/-- A query as a record, given how the queries inside it are read. -/
def Query.record (query : Decoder Query) : Record Query where
  name := "Query"
  fields := ["term", "match", "bool", "range", "query_string"]
  required := []
  start := {}
  set name o q :=
    match name with
    | "term" =>
      (Decoder.optional (Decoder.namedOf TermValue.decode) o).map fun v => { q with term := v }
    | "match" =>
      (Decoder.optional (Decoder.namedOf MatchValue.decode) o).map fun v =>
        { q with matching := v }
    | "bool" =>
      (Decoder.optional (BoolQuery.record query).decode o).map fun v => { q with bool := v }
    | "range" =>
      (Decoder.optional (Decoder.namedOf RangeParams.record.decode) o).map fun v =>
        { q with range := v }
    | _ =>
      (Decoder.optional QueryString.record.decode o).map fun v => { q with queryString := v }

/-- Reads a query with at most a number of queries inside one another. -/
def Query.decodeWithin : Nat → Decoder Query
  | 0 => fun _ => .error (.malformed .tooDeep)
  | n + 1 => (Query.record (Query.decodeWithin n)).decode

/-- Reads a query. Queries are not nested more deeply than the value that writes them. -/
def Query.decode : Decoder Query := fun o => Query.decodeWithin o.height o

end Quarry.Request
