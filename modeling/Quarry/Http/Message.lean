/-
# Requests and responses

* `Request` — a method, a path and a body.
* `Response` — a status, a body, and the methods that would be allowed.
* `Response.withoutBody` — the answer when only the head of a response is asked for.
-/
import Quarry.Http.Failure
import Quarry.Json.Printer

namespace Quarry.Http

/-! ## Requests -/

/-- A request. -/
structure Request where
  method : String
  /-- The path with what may follow it. -/
  path : String
  body : List UInt8 := []

/-! ## Responses -/

/-- The body of a response. -/
inductive Body where
  | empty
  | json (v : Json)
  | text (s : String)

/-- The body as text. -/
def Body.written : Body → String
  | .empty => ""
  | .json v => v.text
  | .text s => s

/-- A response. -/
structure Response where
  status : Nat
  body : Body := .empty
  /-- The methods that are allowed, if that of the request is not. -/
  allow : List String := []

namespace Response

/-- A response with a JSON body. -/
def ofJson (status : Nat) (v : Json) : Response := ⟨status, .json v, []⟩

/-- The response to a request that fails. -/
def ofFailure (f : Failure) : Response := ofJson f.report.status f.report.body

/-- The response to a path that leads nowhere. -/
def notFound : Response := ⟨404, .empty, []⟩

/-- The response to a method that is not among those allowed. -/
def methodNotAllowed (allow : List String) : Response := ⟨405, .empty, allow⟩

/-- A response without its body. -/
def withoutBody (r : Response) : Response := { r with body := .empty }

end Response

end Quarry.Http
