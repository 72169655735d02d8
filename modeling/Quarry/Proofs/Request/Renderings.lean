/-
# Ways to write a request

A request can be written in many ways: scalars or objects, one thing or a list of one, members in
any order and members of no field beside them.

* `ObjectOf`, `ByName`, `Optionally`, `OneOrMany` — ways to write records, things by name, things
  that may be absent and lists.
* `Query.Renders`, `Aggregate.Renders`, `SearchRequest.Renders` — a value is a way to write a query,
  an aggregation, a request.
-/
import Quarry.Proofs.Json.Sorted
import Quarry.Request.Basic

namespace Quarry.Request

open Quarry.Json

/-! ## Shapes -/

section

variable {α : Type} (R : α → Json → Prop)

/-- An object with each name once, whose members write something. -/
inductive ObjectOf (S : α → List (String × Json) → Prop) : α → Json → Prop
  | intro {a : α} {ms : List (String × Json)} :
    (ms.map Prod.fst).Nodup → S a ms → ObjectOf S a (.object ms)

/-- An object that has, under each name, what writes the thing under that name. -/
inductive ByName : Named α → Json → Prop
  | intro {l : Named α} {ms : List (String × Json)} :
    (ms.map Prod.fst).Nodup → (∀ name, Option.Rel R (l.get? name) (Named.get? name ms)) →
    ByName l (.object ms)

/-- Nothing is written by nothing or by `null`. -/
inductive Optionally : Option α → Option Json → Prop
  | absent : Optionally none none
  | null : Optionally none (some .null)
  | present {a : α} {v : Json} : R a v → Optionally (some a) (some v)

/-- A list is written as an array, and one of one thing also as that thing; an empty one may be
absent or `null`. -/
inductive OneOrMany : List α → Option Json → Prop
  | absent : OneOrMany [] none
  | null : OneOrMany [] (some .null)
  | one {a : α} {ms : List (String × Json)} : R a (.object ms) → OneOrMany [a] (some (.object ms))
  | many {as : List α} {vs : List Json} :
    List.Forall₂ R as vs → OneOrMany as (some (.array vs))

/-- A list is written as an array; an empty one may be absent. -/
inductive Many : List α → Option Json → Prop
  | absent : Many [] none
  | many {as : List α} {vs : List Json} : List.Forall₂ R as vs → Many as (some (.array vs))

end

/-- A string. -/
def IsText (s : String) (v : Json) : Prop := v = .string s

/-- A truth value. -/
def IsTruth (b : Bool) (v : Json) : Prop := v = .bool b

/-- A count. -/
def IsCount (n : Nat) (v : Json) : Prop := v = .ofNat n

/-! ## Queries -/

/-- The members that spell out a term. -/
structure TermValue.Spelled (t : TermValue) (ms : List (String × Json)) : Prop where
  value : Named.get? "value" ms = some (.string t.value)
  boost : Optionally IsText t.boost (Named.get? "boost" ms)
  caseInsensitive : Optionally IsTruth t.caseInsensitive (Named.get? "case_insensitive" ms)

/-- A term without options is written as its value, every term as an object. -/
inductive TermValue.Renders : TermValue → Json → Prop
  | bare (text : String) : Renders { value := text } (.string text)
  | spelled {t : TermValue} {v : Json} : ObjectOf TermValue.Spelled t v → Renders t v

/-- The members that spell out a match. -/
structure MatchValue.Spelled (m : MatchValue) (ms : List (String × Json)) : Prop where
  query : Named.get? "query" ms = some (.string m.query)
  fuzziness : Optionally IsText m.fuzziness (Named.get? "fuzziness" ms)
  operator : Optionally IsText m.operator (Named.get? "operator" ms)

/-- A match without options is written as its text, every match as an object. -/
inductive MatchValue.Renders : MatchValue → Json → Prop
  | bare (text : String) : Renders { query := text } (.string text)
  | spelled {m : MatchValue} {v : Json} : ObjectOf MatchValue.Spelled m v → Renders m v

/-- A bound that is an integer is written as one, and one that was given as a string as a string. -/
inductive Bound.Renders : Bound → Json → Prop
  | int (n : Int) : Renders (Bound.ofInt n) (.ofInt n)
  | text (numeral : String) : Renders ⟨numeral, true⟩ (.string numeral)

/-- The members of a range. -/
structure RangeParams.Spelled (p : RangeParams) (ms : List (String × Json)) : Prop where
  gt : Optionally Bound.Renders p.gt (Named.get? "gt" ms)
  gte : Optionally Bound.Renders p.gte (Named.get? "gte" ms)
  lt : Optionally Bound.Renders p.lt (Named.get? "lt" ms)
  lte : Optionally Bound.Renders p.lte (Named.get? "lte" ms)
  lowerFrom : Optionally Bound.Renders p.lowerFrom (Named.get? "from" ms)
  upperTo : Optionally Bound.Renders p.upperTo (Named.get? "to" ms)
  format : Optionally IsText p.format (Named.get? "format" ms)
  includeLower : Optionally IsTruth p.includeLower (Named.get? "include_lower" ms)
  includeUpper : Optionally IsTruth p.includeUpper (Named.get? "include_upper" ms)
  boost : Optionally IsText p.boost (Named.get? "boost" ms)

/-- The members of a query string, whose text may be absent if it is empty. -/
structure QueryString.Spelled (q : QueryString) (ms : List (String × Json)) : Prop where
  query : Named.get? "query" ms = some (.string q.query) ∨
    Named.get? "query" ms = none ∧ q.query = ""
  defaultField : Optionally IsText q.defaultField (Named.get? "default_field" ms)

/-- The members of combined queries, given how queries are written. -/
structure BoolQuery.Spelled (R : Query → Json → Prop) (b : BoolQuery Query)
    (ms : List (String × Json)) : Prop where
  must : OneOrMany R b.must (Named.get? "must" ms)
  should : OneOrMany R b.should (Named.get? "should" ms)
  filter : Many R b.filter (Named.get? "filter" ms)

/-- The members of a query, given how the queries in it are written. -/
structure Query.Spelled (R : Query → Json → Prop) (q : Query) (ms : List (String × Json)) :
    Prop where
  term : Optionally (ByName TermValue.Renders) q.term (Named.get? "term" ms)
  matching : Optionally (ByName MatchValue.Renders) q.matching (Named.get? "match" ms)
  bool : Optionally (ObjectOf (BoolQuery.Spelled R)) q.bool (Named.get? "bool" ms)
  range : Optionally (ByName (ObjectOf RangeParams.Spelled)) q.range (Named.get? "range" ms)
  queryString :
    Optionally (ObjectOf QueryString.Spelled) q.queryString (Named.get? "query_string" ms)

/-- A way to write a query with at most a number of queries inside one another. -/
def Query.RendersWithin : Nat → Query → Json → Prop
  | 0 => fun _ _ => False
  | n + 1 => ObjectOf (Query.Spelled (Query.RendersWithin n))

/-- A way to write a query. -/
def Query.Renders (q : Query) (v : Json) : Prop := ∃ n, Query.RendersWithin n q v

/-! ## Aggregations -/

/-- The members of buckets by values. -/
structure TermsAgg.Spelled (t : TermsAgg) (ms : List (String × Json)) : Prop where
  field : Named.get? "field" ms = some (.string t.field)
  size : Optionally IsCount t.size (Named.get? "size" ms)

/-- The members of buckets by dates. -/
structure DateHistogramAgg.Spelled (d : DateHistogramAgg) (ms : List (String × Json)) : Prop where
  field : Named.get? "field" ms = some (.string d.field)
  buckets : Optionally IsCount d.buckets (Named.get? "buckets" ms)
  fixedInterval : Optionally IsText d.fixedInterval (Named.get? "fixed_interval" ms)
  calendarInterval : Optionally IsText d.calendarInterval (Named.get? "calendar_interval" ms)

/-- The members of a number from a field. -/
structure FieldAgg.Spelled (f : FieldAgg) (ms : List (String × Json)) : Prop where
  field : Named.get? "field" ms = some (.string f.field)
  missing : Optionally IsText f.missing (Named.get? "missing" ms)

/-- What gives no aggregations. -/
inductive GivesNone : Option Json → Prop
  | absent : GivesNone none
  | null : GivesNone (some .null)
  | empty : GivesNone (some (.object []))

/-- Reads aggregations by their labels, or none from `null`. -/
abbrev decodeAggregates (d : Decoder Aggregate) : Decoder (Option (Named Aggregate)) :=
  Decoder.optional (Decoder.namedOf d)

/-- What can be read as aggregations, or as none. -/
def CanBeRead (v : Json) : Prop :=
  ∃ x, decodeValue (decodeAggregates Aggregate.decode) v.sorted = .ok x

/-- Aggregations are written under `aggregations`, beside anything under `aggs` that can be read, or
under `aggs`, with none under the longer name. -/
inductive AggregatesRender (R : Aggregate → Json → Prop) :
    Named Aggregate → (aggregations aggs : Option Json) → Prop
  | aggregations {l : Named Aggregate} {v : Json} {aggs : Option Json} :
    l ≠ [] → ByName R l v → (∀ w ∈ aggs, CanBeRead w) → AggregatesRender R l (some v) aggs
  | aggs {l : Named Aggregate} {v : Json} {aggregations : Option Json} :
    GivesNone aggregations → ByName R l v → AggregatesRender R l aggregations (some v)
  | nothing {aggregations aggs : Option Json} :
    GivesNone aggregations → GivesNone aggs → AggregatesRender R [] aggregations aggs

/-- The members of an aggregation, given how those in it are written. -/
structure Aggregate.Spelled (R : Aggregate → Json → Prop) (a : Aggregate)
    (ms : List (String × Json)) : Prop where
  terms : Optionally (ObjectOf TermsAgg.Spelled) a.terms (Named.get? "terms" ms)
  dateHistogram :
    Optionally (ObjectOf DateHistogramAgg.Spelled) a.dateHistogram (Named.get? "date_histogram" ms)
  avg : Optionally (ObjectOf FieldAgg.Spelled) a.avg (Named.get? "avg" ms)
  max : Optionally (ObjectOf FieldAgg.Spelled) a.max (Named.get? "max" ms)
  aggs : AggregatesRender R a.aggs (Named.get? "aggregations" ms) (Named.get? "aggs" ms)

/-- A way to write an aggregation with at most a number of aggregations inside one another. -/
def Aggregate.RendersWithin : Nat → Aggregate → Json → Prop
  | 0 => fun _ _ => False
  | n + 1 => ObjectOf (Aggregate.Spelled (Aggregate.RendersWithin n))

/-- A way to write an aggregation. -/
def Aggregate.Renders (a : Aggregate) (v : Json) : Prop := ∃ n, Aggregate.RendersWithin n a v

/-! ## Sort keys -/

/-- The keyword of a direction in any letter case. -/
def SortDirection.Spells (d : SortDirection) (text : String) : Prop :=
  asciiLower text = asciiLower d.keyword

/-- The members of an object that gives a direction; its mode may be any string. -/
structure SortDirection.Spelled (d : SortDirection) (ms : List (String × Json)) : Prop where
  order : ∃ text, Named.get? "order" ms = some (.string text) ∧ d.Spells text
  mode : ∃ mode, Optionally IsText mode (Named.get? "mode" ms)

/-- A direction is written as its keyword, or as an object that gives it. -/
inductive SortDirection.Renders : SortDirection → Json → Prop
  | keyword {d : SortDirection} {text : String} : d.Spells text → Renders d (.string text)
  | spelled {d : SortDirection} {v : Json} : ObjectOf SortDirection.Spelled d v → Renders d v

/-- The directions of sort keys by their fields. -/
def directions (keys : List SortEntry) : Named SortDirection :=
  keys.map fun key => (key.field, key.direction)

/-- An ascending key is written as its field; keys of ascending fields in a row, or a single one,
are written as an object. -/
inductive SortKeysRender : List SortEntry → List Json → Prop
  | nil : SortKeysRender [] []
  | field {name : String} {keys : List SortEntry} {vs : List Json} : SortKeysRender keys vs →
    SortKeysRender (⟨name, .asc⟩ :: keys) (.string name :: vs)
  | object {group keys : List SortEntry} {v : Json} {vs : List Json} :
    (directions group).Ascending → ByName SortDirection.Renders (directions group) v →
    SortKeysRender keys vs → SortKeysRender (group ++ keys) (v :: vs)

/-- A list of sort keys is written as an array; an empty one may be absent or `null`. -/
inductive SortRenders : List SortEntry → Option Json → Prop
  | absent : SortRenders [] none
  | null : SortRenders [] (some .null)
  | keys {keys : List SortEntry} {vs : List Json} : SortKeysRender keys vs →
    SortRenders keys (some (.array vs))

/-! ## Requests -/

/-- The members of a request. -/
structure SearchRequest.Spelled (r : SearchRequest) (ms : List (String × Json)) : Prop where
  query : Optionally Query.Renders r.query (Named.get? "query" ms)
  size : Optionally IsCount r.size (Named.get? "size" ms)
  start : Optionally IsCount r.start (Named.get? "from" ms)
  sort : SortRenders r.sort (Named.get? "sort" ms)
  aggs : AggregatesRender Aggregate.Renders r.aggs (Named.get? "aggregations" ms)
    (Named.get? "aggs" ms)

/-- A way to write a request. -/
def SearchRequest.Renders : SearchRequest → Json → Prop := ObjectOf SearchRequest.Spelled

end Quarry.Request
