/-
# Failures of requests

What a client is told when a request cannot be answered.

* `Failure` — an error of the engine, or a body that cannot be understood.
* `FailureKind` — its kind, which fixes the type and the status that are reported.
* `Report` — a failure as it is written: `Report.short` inside the answer to a larger request,
  `Report.body` as an answer of its own.
-/
import Quarry.Error
import Quarry.Text.Utf8

namespace Quarry.Http

open Quarry.Json Quarry.Text

/-! ## Bodies -/

/-- Why the body of a request cannot be understood. -/
inductive BodyError where
  /-- The body is not text. -/
  | notText (fault : Utf8.Fault)
  /-- A document is not JSON. -/
  | document (e : DecodeError)
  /-- A template is none. -/
  | template (e : DecodeError)
  /-- The line of an action cannot be read. -/
  | action (e : DecodeError)
  /-- The line of an action names none, or more than one. -/
  | notOneAction (line : String)
  /-- An action stands on the last line, but needs a document after it. -/
  | noSource (name : String)
  /-- The line before a search cannot be read. -/
  | header (e : DecodeError)
  /-- The lines of several searches do not come in pairs. -/
  | unpaired
  /-- Nothing says which index to search. -/
  | noIndex
  deriving DecidableEq

/-- The message for a body that cannot be understood. -/
def BodyError.message : BodyError → String
  | .notText fault => fault.message
  | .document e => "Invalid document: " ++ e.message
  | .template e => "Invalid template: " ++ e.message
  | .action e => "Invalid action: " ++ e.message
  | .notOneAction line => "action line must have exactly one key: " ++ line
  | .noSource name => "'" ++ name ++ "' action is missing its source line"
  | .header e => "Invalid header: " ++ e.message
  | .unpaired => "msearch body must have header/body pairs"
  | .noIndex => "no index in msearch header or path"

/-! ## Kinds -/

/-- The kinds of failures. -/
inductive FailureKind where
  | body
  | engine (k : ErrorKind)
  deriving DecidableEq, Repr

namespace FailureKind

/-- How a kind is named to clients. -/
def type : FailureKind → String
  | .body => "parse_exception"
  | .engine .decode => "parsing_exception"
  | .engine .compile => "search_phase_execution_exception"
  | .engine .format => "mapper_parsing_exception"
  | .engine .indexNotFound => "index_not_found_exception"
  | .engine .invalidIndexName => "invalid_index_name_exception"
  | .engine .template => "invalid_index_template_exception"
  | .engine .rowShape => "exception"
  | .engine .storage => "exception"
  | .engine .config => "exception"
  | .engine .io => "exception"

/-- The status of a kind: what the client got wrong, what is not there, what went wrong here. -/
def status : FailureKind → Nat
  | .body => 400
  | .engine .decode => 400
  | .engine .compile => 400
  | .engine .format => 400
  | .engine .invalidIndexName => 400
  | .engine .template => 400
  | .engine .indexNotFound => 404
  | .engine .rowShape => 500
  | .engine .storage => 500
  | .engine .config => 500
  | .engine .io => 500

/-- A message of a kind. -/
def message : FailureKind → String → String
  | .body, text => "Invalid request body: " ++ text
  | .engine k, text => k.message text

end FailureKind

/-! ## Failures -/

/-- Why a request cannot be answered. -/
inductive Failure where
  | body (e : BodyError)
  | engine (e : Error)
  deriving DecidableEq

/-- The kind of a failure. -/
def Failure.kind : Failure → FailureKind
  | .body _ => .body
  | .engine e => .engine e.kind

/-- What a message says after the kind. -/
def Failure.text : Failure → String
  | .body e => e.message
  | .engine e => e.text

/-! ## Reports -/

/-- What a client is told of a failure. -/
structure Report where
  type : String
  status : Nat
  reason : String
  deriving DecidableEq, Repr

/-- The report of a failure of a kind. -/
def FailureKind.report (k : FailureKind) (text : String) : Report :=
  ⟨k.type, k.status, k.message text⟩

/-- The report of a failure. -/
def Failure.report (f : Failure) : Report := f.kind.report f.text

namespace Report

/-- A report without its status. -/
def short (r : Report) : Json := .object [("type", .string r.type), ("reason", .string r.reason)]

/-- A report as the answer to a request. -/
def body (r : Report) : Json :=
  .object [
    ("error", .object [("root_cause", .array [r.short]), ("type", .string r.type),
      ("reason", .string r.reason)]),
    ("status", .ofNat r.status)]

end Report

end Quarry.Http
