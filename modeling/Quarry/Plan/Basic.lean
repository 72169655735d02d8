/-
# Plans

A plan is what has to be run to answer a request: a statement for each aggregation, and one for
the hits.

* `Alias` — a result column with what stands in it.
* `Columns` — what the columns of an aggregation hold.
* `AggregationNode`, `Node`, `Plan` — statements with what is made of their results.
-/
import Quarry.Request.Aggregate
import Quarry.Sql.Expr

namespace Quarry

namespace Plan

open Quarry.Request Quarry.Sql

/-! ## Columns -/

/-- What an aggregation does with which field. -/
structure Definition where
  type : AggregateType
  field : String
  deriving DecidableEq, Repr

/-- The definition of a kind of aggregation. -/
def Definition.ofKind (k : AggregateKind) : Definition := ⟨k.type, k.field⟩

/-- A result column and what stands in it. -/
structure Alias where
  name : String
  definition : Definition
  deriving DecidableEq, Repr

/-- What the columns of an aggregation hold. -/
inductive Columns where
  /-- A row for each bucket: its key, its count, and the numbers computed for it. -/
  | buckets (key count : Alias) (metrics : List Alias)
  /-- One row with one number. -/
  | metric (value : Alias)
  deriving DecidableEq, Repr

namespace Columns

/-- The columns by which rows are grouped. -/
def groups : Columns → List Alias
  | .buckets key _ _ => [key]
  | .metric _ => []

/-- The columns that are computed over groups. -/
def functions : Columns → List Alias
  | .buckets _ count metrics => count :: metrics
  | .metric value => [value]

/-- The category of the result. -/
def category : Columns → Category
  | .buckets .. => .bucket
  | .metric _ => .metricsSingle

end Columns

/-! ## Nodes -/

/-- The statement for an aggregation. -/
structure AggregationNode where
  /-- The label under which the result is returned. -/
  label : String
  columns : Columns
  statement : Statement
  deriving DecidableEq, Repr

/-- A statement with what is made of its result. -/
inductive Node where
  | aggregation (n : AggregationNode)
  | hits (s : Statement)
  deriving DecidableEq, Repr

namespace Node

/-- The statement of a node. -/
def statement : Node → Statement
  | .aggregation n => n.statement
  | .hits s => s

/-- The text of the statement. -/
def sql (n : Node) : String := Statement.sql n.statement

/-- The names of the result columns. -/
def names (n : Node) : List String := n.statement.columns.map Column.name

end Node

/-- The column of the number of a hit. -/
def hitNumber : String := "id"

/-- The column of the document of a hit. -/
def hitDocument : String := "content"

end Plan

/-! ## Plans -/

/-- What has to be run to answer a request. -/
structure Plan where
  /-- The aggregations in ascending order of their labels. -/
  aggregations : List Plan.AggregationNode
  hits : Sql.Statement
  deriving DecidableEq, Repr

/-- The nodes in the order in which they are run. -/
def Plan.nodes (p : Plan) : List Plan.Node := p.aggregations.map .aggregation ++ [.hits p.hits]

end Quarry
