import Quarry.Date.Calendar
import Quarry.Date.Canonical
import Quarry.Date.Format
import Quarry.Decimal.Binary64
import Quarry.Decimal.Layout
import Quarry.Decimal.Shortest
import Quarry.Document
import Quarry.Engine.Basic
import Quarry.Engine.Program
import Quarry.Engine.Response
import Quarry.Error
import Quarry.Http.Bulk
import Quarry.Http.Cluster
import Quarry.Http.Failure
import Quarry.Http.Handler
import Quarry.Http.Message
import Quarry.Http.MultiSearch
import Quarry.Http.Path
import Quarry.Http.Route
import Quarry.Http.Service
import Quarry.Http.Wire
import Quarry.Json.Basic
import Quarry.Json.Decode
import Quarry.Json.Malformed
import Quarry.Json.Number
import Quarry.Json.Outline
import Quarry.Json.Printer
import Quarry.Json.Scanner
import Quarry.Json.Verbatim
import Quarry.Main
import Quarry.Plan.Basic
import Quarry.Plan.Compile
import Quarry.Plan.Predicate
import Quarry.Proofs.Conversion
import Quarry.Proofs.Date.Calendar
import Quarry.Proofs.Date.Canonical
import Quarry.Proofs.Date.Counts
import Quarry.Proofs.Date.Order
import Quarry.Proofs.Decimal.Defined
import Quarry.Proofs.Decimal.Exact
import Quarry.Proofs.Document
import Quarry.Proofs.Engine.Answers
import Quarry.Proofs.Engine.Changes
import Quarry.Proofs.Engine.Crowds
import Quarry.Proofs.Engine.Exchanges
import Quarry.Proofs.Engine.Histories
import Quarry.Proofs.Engine.Indices
import Quarry.Proofs.Engine.Interleaved
import Quarry.Proofs.Engine.Lookups
import Quarry.Proofs.Engine.Pages
import Quarry.Proofs.Engine.Races
import Quarry.Proofs.Engine.Refusals
import Quarry.Proofs.Engine.Registrations
import Quarry.Proofs.Engine.Restarts
import Quarry.Proofs.Engine.Runs
import Quarry.Proofs.Engine.Searches
import Quarry.Proofs.Engine.Values
import Quarry.Proofs.Engine.Writes
import Quarry.Proofs.Http.Bulk
import Quarry.Proofs.Http.Framing
import Quarry.Proofs.Http.MultiSearch
import Quarry.Proofs.Http.Runs
import Quarry.Proofs.Json.Agreement
import Quarry.Proofs.Json.Entries
import Quarry.Proofs.Json.Fields
import Quarry.Proofs.Json.Heights
import Quarry.Proofs.Json.Kept
import Quarry.Proofs.Json.Named
import Quarry.Proofs.Json.Numerals
import Quarry.Proofs.Json.Outlines
import Quarry.Proofs.Json.Parsed
import Quarry.Proofs.Json.ReadBack
import Quarry.Proofs.Json.Sorted
import Quarry.Proofs.Json.Strings
import Quarry.Proofs.Json.Written
import Quarry.Proofs.Outcome
import Quarry.Proofs.Plan.Accepted
import Quarry.Proofs.Plan.Aliases
import Quarry.Proofs.Plan.Bounds
import Quarry.Proofs.Plan.Buckets
import Quarry.Proofs.Plan.Erased
import Quarry.Proofs.Plan.Leaves
import Quarry.Proofs.Plan.Limits
import Quarry.Proofs.Plan.Listing
import Quarry.Proofs.Plan.Maxima
import Quarry.Proofs.Plan.Members
import Quarry.Proofs.Plan.Nodes
import Quarry.Proofs.Plan.Numbers
import Quarry.Proofs.Plan.Partition
import Quarry.Proofs.Plan.Ranges
import Quarry.Proofs.Plan.Scopes
import Quarry.Proofs.Plan.Sources
import Quarry.Proofs.Plan.Tokens
import Quarry.Proofs.Plan.Where
import Quarry.Proofs.Request.Agreement
import Quarry.Proofs.Request.Ordered
import Quarry.Proofs.Request.Records
import Quarry.Proofs.Request.Rendered
import Quarry.Proofs.Request.Renderings
import Quarry.Proofs.Result.Planned
import Quarry.Proofs.Result.Rows
import Quarry.Proofs.Result.Shown
import Quarry.Proofs.Sql.Clauses
import Quarry.Proofs.Sql.Columns
import Quarry.Proofs.Sql.Datetime
import Quarry.Proofs.Sql.Fields
import Quarry.Proofs.Sql.Greatest
import Quarry.Proofs.Sql.Groups
import Quarry.Proofs.Sql.Lexer
import Quarry.Proofs.Sql.Pieces
import Quarry.Proofs.Sql.Plain
import Quarry.Proofs.Sql.References
import Quarry.Proofs.Sql.Rounding
import Quarry.Proofs.Sql.Rows
import Quarry.Proofs.Sql.Runs
import Quarry.Proofs.Sql.Skeleton
import Quarry.Proofs.Sql.Sorted
import Quarry.Proofs.Store.Numbered
import Quarry.Proofs.Store.Placed
import Quarry.Proofs.Store.Tables
import Quarry.Proofs.Store.Templates
import Quarry.Proofs.Template.Kept
import Quarry.Proofs.Template.Matching
import Quarry.Proofs.Template.Registry
import Quarry.Proofs.Template.Stars
import Quarry.Proofs.Text.Digits
import Quarry.Proofs.Text.Lines
import Quarry.Proofs.Text.Utf8
import Quarry.Request.Aggregate
import Quarry.Request.Basic
import Quarry.Request.Bound
import Quarry.Request.Query
import Quarry.Request.Scalar
import Quarry.Request.Sort
import Quarry.Result.Aggregation
import Quarry.Result.Assemble
import Quarry.Result.Cell
import Quarry.Server.Address
import Quarry.Server.Arguments
import Quarry.Server.Config
import Quarry.Server.Cors
import Quarry.Sql.Datetime
import Quarry.Sql.Evaluate
import Quarry.Sql.Expr
import Quarry.Sql.Limits
import Quarry.Sql.Mean
import Quarry.Sql.Numeric
import Quarry.Sql.Order
import Quarry.Sql.Path
import Quarry.Sql.Quote
import Quarry.Sql.Rounding
import Quarry.Sql.Select
import Quarry.Store.Basic
import Quarry.Store.Scripted
import Quarry.Store.Tables
import Quarry.Template.Basic
import Quarry.Template.CharSet
import Quarry.Template.Reader
import Quarry.Template.Regex
import Quarry.Template.Registry
import Quarry.Text.Blank
import Quarry.Text.CaseFold
import Quarry.Text.Category
import Quarry.Text.Digits
import Quarry.Text.Printable
import Quarry.Text.Quoted
import Quarry.Text.Split
import Quarry.Text.Utf8
import Quarry.Toml.Basic
import Quarry.Toml.Printer
import Quarry.Toml.Reader
import Quarry.Toml.Token
