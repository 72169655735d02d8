/-
# Handlers

Programs that end with an answer for a client, or with a failure.

* `Handler` — such programs. `Handler.ofEngine`, `Handler.orRefuse` — what the engine does, and
  what is made of a body.
* `putDocument` — putting a document that is given as text into an index.
-/
import Quarry.Engine.Basic
import Quarry.Http.Message

namespace Quarry.Http

open Quarry.Engine

/-- Programs that may end with a failure. -/
abbrev Handler := ExceptT Failure Program

namespace Handler

variable {α : Type}

/-- What the engine does. -/
def ofEngine (p : Engine α) : Handler α :=
  ExceptT.mk do
    let r ← Engine.attempt p
    return r.mapError .engine

/-- Goes on with what is made of a body, or refuses it. -/
def orRefuse (x : Except BodyError α) : Handler α := ExceptT.mk (pure (x.mapError .body))

/-- Runs a handler to its end, and goes on in either case. -/
def attempt (h : Handler α) : Program (Except Failure α) := h.run

/-- The response that a handler ends with. -/
def respond (h : Handler Response) : Program Response := do
  match ← h.attempt with
  | .ok r => return r
  | .error f => return .ofFailure f

end Handler

/-- Reads a body as text. -/
def textOfBody (body : List UInt8) : Except BodyError String :=
  (Text.Utf8.decode body).mapError .notText

/-- Puts a document into an index, and returns its number. -/
def putDocument (index : String) (source : List UInt8) : Handler Int := do
  let document ← Handler.orRefuse ((Json.ofBytes source).mapError .document)
  Handler.ofEngine (indexDocument index document)

/-- How a document that was put into an index is described. -/
def createdMembers (index : String) (id : Int) : List (String × Json) :=
  [("_index", .string index), ("_id", .string (Text.Digits.ofInt id)), ("_version", .ofNat 1),
    ("result", .string "created"), ("_shards", shardsJson)]

end Quarry.Http
