/-
# Scalars given as text

Several places of a request take a string, a number or a truth value and keep its text.

* `scalarText` — the decoder of such a place.
* `shorthand` — a place that takes either such a scalar or an object that spells out more.
-/
import Quarry.Json.Decode

namespace Quarry.Request

open Quarry.Json

/-- The text of a scalar: strings as they are, numbers as plain decimals. -/
def scalarText? : Outline → Option String
  | .string s => some s
  | .number n => some n.plainText
  | .bool b => some (if b then "true" else "false")
  | _ => none

/-- Reads a scalar as text. -/
def scalarText : Decoder String := fun o =>
  match scalarText? o with
  | some text => .ok text
  | none => .error (o.mismatch "a string, number or boolean")

/-- Reads a scalar as text, or nothing from `null`. -/
def optionalScalarText : Decoder (Option String) := Decoder.optional scalarText

/-- Reads a scalar, or an object that is a record. -/
def shorthand {α : Type} (expected : String) (ofScalar : String → α) (verbose : Record α) :
    Decoder α := fun o =>
  match scalarText? o with
  | some text => .ok (ofScalar text)
  | none => verbose.decodeObject expected o

end Quarry.Request
