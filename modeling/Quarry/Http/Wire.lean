/-
# Messages

Requests and responses as they are sent.

* `Head` — the first line and the headers of a request. `Head.ofLines?` — reading them.
* `Response.wire` — a response as text.
-/
import Quarry.Http.Message
import Quarry.Text.Blank

namespace Quarry.Http

open Quarry.Text

/-! ## Reading -/

/-- A header, its name in small letters. -/
abbrev Header := String × String

/-- What comes before the body of a request. -/
structure Head where
  method : String
  path : String
  headers : List Header
  deriving DecidableEq, Repr

/-- Reads a header. -/
def headerOf? (line : String) : Option Header :=
  let cs := line.toList
  match cs.dropWhile (· != ':') with
  | _ :: value =>
    let name := String.ofList ((cs.takeWhile (· != ':')).map Char.toLower)
    some (name, trim (String.ofList value))
  | [] => none

namespace Head

/-- Reads the lines before the body of a request. -/
def ofLines? : List String → Option Head
  | first :: rest =>
    match first.splitOn " " with
    | method :: path :: _ => some ⟨method, path, rest.filterMap headerOf?⟩
    | _ => none
  | [] => none

/-- The value of a header. -/
def header? (h : Head) (name : String) : Option String := h.headers.lookup name

/-- The number of bytes of the body. -/
def bodyLength (h : Head) : Nat :=
  ((h.header? "content-length").bind fun s => Digits.natOf? s.toList).getD 0

end Head

/-! ## Writing -/

/-- The headers that tell what a response is. -/
def Response.ownHeaders (r : Response) : List Header :=
  (match r.body with
    | .json _ => [("content-type", "application/json")]
    | .text _ => [("content-type", "text/plain; charset=utf-8")]
    | .empty => []) ++
  (if r.allow.isEmpty then [] else [("allow", String.intercalate "," r.allow)]) ++
  [("content-length", Digits.ofNat (Utf8.encode r.body.written).length)]

/-- The first line of a response with a status. -/
def statusLine (status : Nat) : String := "HTTP/1.1 " ++ Digits.ofNat status ++ " \r\n"

/-- A response with further headers as text. -/
def Response.wire (r : Response) (headers : List Header) : String :=
  statusLine r.status ++
    String.join ((headers ++ r.ownHeaders).map fun (name, v) => name ++ ": " ++ v ++ "\r\n") ++
    "\r\n" ++ r.body.written

end Quarry.Http
