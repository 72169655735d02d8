/-
# Addresses to listen on

* `Address` — a host and a port as they are written. `Address.ofText` — the address a text gives.
* `Address.override` — an address with the host or the port that a command line asks for.
-/
import Quarry.Text.Digits

namespace Quarry.Server

open Quarry.Text

/-- A host and a port as they are written. -/
structure Address where
  host : String
  port : String
  deriving DecidableEq, Repr

namespace Address

/-- The port when a text names none. -/
def defaultPort : String := "9200"

/-- What stands before and after the last colon of a text. -/
def splitLast : List Char → Option (List Char × List Char)
  | [] => none
  | c :: cs =>
    match splitLast cs with
    | some (host, port) => some (c :: host, port)
    | none => if c = ':' then some ([], cs) else none

/-- The address that a text gives: the port stands after the last colon. -/
def ofText (s : String) : Address :=
  match splitLast s.toList with
  | some (host, port) => ⟨String.ofList host, String.ofList port⟩
  | none => ⟨s, defaultPort⟩

/-- An address with another host or port. -/
def override (a : Address) (host : Option String) (port : Option Nat) : Address where
  host := host.getD a.host
  port := (port.map Digits.ofNat).getD a.port

/-- An address as it is written. -/
def text (a : Address) : String := a.host ++ ":" ++ a.port

end Address

end Quarry.Server
