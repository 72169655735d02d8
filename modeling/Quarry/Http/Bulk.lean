/-
# Bulk requests

The body of a bulk request is a sequence of lines. An action stands on one line; the document it
needs stands on the next. Blank lines are passed over.

* `BulkAction` — an action with its document. `parseActions` — the actions of lines.
* `BulkItem` — what became of an action. `performActions` — the actions one after another, none of
  which is kept from happening by the failure of another.
* `answerBulk` — the answer to a bulk request.
-/
import Quarry.Http.Handler
import Quarry.Text.Split

namespace Quarry.Http

open Quarry.Engine Quarry.Json Quarry.Text

/-! ## Actions -/

/-- An action. -/
structure BulkAction where
  name : String
  index : Option String
  /-- The line of the document, if the action has one. -/
  source : Option String
  deriving DecidableEq, Repr

/-- The one action that has no document. -/
def deleteName : String := "delete"

/-- What an action says besides its name. -/
def actionRecord : Record (Option String) where
  name := "BulkActionMeta"
  fields := ["_index"]
  required := []
  start := none
  set _ o _ := Decoder.optional Decoder.string o

/-- Reads the line of an action: an object with the name of the action as its only key. -/
def parseActionLine (line : String) : Except BodyError (String × Option String) := do
  let entries ← (decodeText (Decoder.namedOf actionRecord.decode) (Utf8.encode line)).mapError
    .action
  match entries with
  | [action] => return action
  | _ => throw (.notOneAction line)

/-- The actions of lines; those that name no index are on the one given. -/
def parseActions (index : Option String) : List String → Except BodyError (List BulkAction)
  | [] => .ok []
  | line :: rest => do
    let (name, named) ← parseActionLine line
    let index' := named.orElse fun _ => index
    if name = deleteName then
      let actions ← parseActions index rest
      return ⟨name, index', none⟩ :: actions
    else
      match rest with
      | [] => throw (.noSource name)
      | source :: rest => do
        let actions ← parseActions index rest
        return ⟨name, index', some source⟩ :: actions

/-- The actions of a text. -/
def parseBulk (index : Option String) (text : String) : Except BodyError (List BulkAction) :=
  parseActions index (contentLines text)

/-! ## Items -/

/-- What became of an action. -/
structure BulkItem where
  action : String
  index : String
  /-- The number of the document, or what is reported. -/
  outcome : Except Report Int

namespace BulkItem

/-- The key of an item; an unknown action counts as the one that puts a document. -/
def key (item : BulkItem) : String :=
  if ["create", "delete", "update"].contains item.action then item.action else "index"

/-- Whether an action failed. -/
def failed (item : BulkItem) : Bool := item.outcome matches .error _

/-- The account of an item. -/
def members (item : BulkItem) : List (String × Json) :=
  match item.outcome with
  | .ok id => createdMembers item.index id ++ [("status", .ofNat 201)]
  | .error report =>
    [("_index", .string item.index), ("status", .ofNat report.status), ("error", report.short)]

/-- An item as it is returned. -/
def toJson (item : BulkItem) : Json := .object [(item.key, .object item.members)]

end BulkItem

/-! ## Performing actions -/

/-- Whether an action puts a document into an index. -/
def BulkAction.puts (a : BulkAction) : Bool := a.name == "index" || a.name == "create"

/-- The report of an action that is not supported. -/
def unsupportedAction (name : String) : Report :=
  ⟨"illegal_argument_exception", 400, "bulk action '" ++ name ++ "' is not supported"⟩

/-- The report of an action that names no index. -/
def missingIndex : Report := ⟨"action_request_validation_exception", 400, "index is missing"⟩

/-- Puts the document of an action into an index. -/
def putSource (index : String) : Option String → Handler Int
  | some line => putDocument index (Utf8.encode line)
  | none => Handler.ofEngine (indexDocument index (.object []))

/-- Performs an action. -/
def performAction (a : BulkAction) : Program BulkItem := do
  let index := a.index.getD ""
  if !a.puts then return ⟨a.name, index, .error (unsupportedAction a.name)⟩
  else if index.isEmpty then return ⟨a.name, index, .error missingIndex⟩
  else
    let r ← (putSource index a.source).attempt
    return ⟨a.name, index, r.mapError Failure.report⟩

/-- Performs actions one after another. -/
def performActions : List BulkAction → Program (List BulkItem)
  | [] => return []
  | a :: rest => do
    let item ← performAction a
    let items ← performActions rest
    return item :: items

/-! ## The answer -/

/-- The answer to a bulk request. -/
def bulkJson (items : List BulkItem) : Json :=
  .object [("took", .ofNat 0), ("errors", .bool (items.any BulkItem.failed)),
    ("items", .array (items.map BulkItem.toJson))]

/-- Answers a bulk request; nothing is done unless all of its lines can be read. -/
def answerBulk (index : Option String) (body : List UInt8) : Handler Json := do
  let text ← Handler.orRefuse (textOfBody body)
  let actions ← Handler.orRefuse (parseBulk index text)
  let items ← ExceptT.lift (performActions actions)
  return bulkJson items

end Quarry.Http
