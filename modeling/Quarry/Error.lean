/-
# Errors

* `Error` — everything that can go wrong in answering.
* `ErrorKind` — its kinds. `Error.kind`, `Error.message` — the kind and the wording of an error.
* `StorageError` — what a store reports, or what is wrong with what it returns.
-/
import Quarry.Date.Format
import Quarry.Json.Decode
import Quarry.Request.Aggregate
import Quarry.Result.Aggregation

namespace Quarry

open Quarry.Json Quarry.Date Quarry.Request Quarry.Result

/-! ## Kinds -/

/-- The kinds of errors. -/
inductive ErrorKind where
  | decode
  | compile
  | format
  | rowShape
  | storage
  | indexNotFound
  | invalidIndexName
  | template
  | config
  | io
  deriving DecidableEq, Repr

/-- What a message of a kind starts with. -/
def ErrorKind.title : ErrorKind → String
  | .decode => "Decode error"
  | .compile => "Compile error"
  | .format => "Format error"
  | .rowShape => "Row shape error"
  | .storage => "Storage error"
  | .indexNotFound => "Index not found"
  | .invalidIndexName => "Invalid index name"
  | .template => "Template error"
  | .config => "Config error"
  | .io => "IO error"

/-- A message of a kind. -/
def ErrorKind.message (k : ErrorKind) (text : String) : String := k.title ++ ": " ++ text

/-! ## Stores -/

/-- Why a store gives no answer, or none that can be used. -/
inductive StorageError where
  /-- The account of the store itself. -/
  | reported (text : String)
  /-- A document that was kept cannot be read back. -/
  | unreadableDocument (id : Int) (e : DecodeError)
  deriving DecidableEq

/-- The message for a store that gives no answer. -/
def StorageError.message : StorageError → String
  | .reported text => text
  | .unreadableDocument id e =>
    "stored document " ++ Text.Digits.ofInt id ++ " is not JSON: " ++ e.message

/-! ## Errors -/

/-- Everything that can go wrong in answering. -/
inductive Error where
  | decode (e : DecodeError)
  | compile (e : CompileError)
  | format (e : FormatError)
  | rowShape (e : RowShapeError)
  | storage (e : StorageError)
  | indexNotFound (name : String)
  | invalidIndexName (name : String)
  /-- The pattern of a template cannot be read. -/
  | template (pattern : String)
  deriving DecidableEq

namespace Error

/-- The kind of an error. -/
def kind : Error → ErrorKind
  | .decode _ => .decode
  | .compile _ => .compile
  | .format _ => .format
  | .rowShape _ => .rowShape
  | .storage _ => .storage
  | .indexNotFound _ => .indexNotFound
  | .invalidIndexName _ => .invalidIndexName
  | .template _ => .template

/-- What a message says after the kind. -/
def text : Error → String
  | .decode e => e.message
  | .compile e => e.message
  | .format e => e.message
  | .rowShape e => e.message
  | .storage e => e.message
  | .indexNotFound name => name
  | .invalidIndexName name => name
  | .template pattern => "invalid index pattern '" ++ pattern ++ "': <regex>"

/-- The message for an error. -/
def message (e : Error) : String := e.kind.message e.text

end Error

end Quarry
