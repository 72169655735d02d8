/-
# Pages of other origins

Which headers tell a page of another origin that it may use the service.

* `AllowedOrigins` — every origin, or those of a list.
* `CorsRequest` — what a request says about where it comes from.
* `corsHeaders` — the headers of the response.
-/
import Quarry.Server.Config

namespace Quarry.Server

/-! ## Origins -/

/-- The origins that are let in. -/
inductive AllowedOrigins where
  | every
  | listed (origins : List String)
  deriving DecidableEq, Repr

/-- The name for every origin. -/
def everyOrigin : String := "*"

/-- Whether a text can stand in a header: no control characters but the tab. -/
def isHeaderText (s : String) : Bool :=
  s.toList.all fun c => c == '\t' || (0x20 ≤ c.toNat && c.toNat != 0x7F)

/-- The origins that a configuration lets in. What cannot stand in a header is no origin. -/
def CorsConfig.allowed (c : CorsConfig) : AllowedOrigins :=
  if c.origins.contains everyOrigin then .every
  else .listed (c.origins.filter isHeaderText)

/-- The origin to be named to a request from an origin, if it is let in. -/
def AllowedOrigins.answer : AllowedOrigins → Option String → Option String
  | .every, _ => some everyOrigin
  | .listed origins, some origin => if origins.contains origin then some origin else none
  | .listed _, none => none

/-! ## Headers -/

/-- What a request says about where it comes from. -/
structure CorsRequest where
  origin : Option String
  /-- Whether the request only asks what another request may do. -/
  preflight : Bool
  deriving DecidableEq, Repr

/-- The methods that pages of other origins may use. -/
def corsMethods : List String := ["GET", "POST", "PUT", "HEAD", "OPTIONS"]

/-- The headers of the response to a request, in alphabetical order. A service without rules for
other origins names none, but still answers what asks for them. -/
def corsHeaders (c : CorsConfig) (r : CorsRequest) : List (String × String) :=
  if !c.enabled then []
  else
    (if r.preflight then
      [("access-control-allow-headers", "*"),
        ("access-control-allow-methods", String.intercalate "," corsMethods)]
    else []) ++
    ((c.allowed.answer r.origin).map fun origin => ("access-control-allow-origin", origin)).toList

end Quarry.Server
