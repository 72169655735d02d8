/-
# Sort keys

* `SortDirection`, `SortEntry` — one key of the order of hits.
* `decodeSort` — reading a list of keys. A key is a field name, or an object from field names to
  directions; a direction is its name, or an object with an `order`.
-/
import Quarry.Json.Decode

namespace Quarry.Request

open Quarry.Json

/-- The direction of a sort key. -/
inductive SortDirection where
  | asc
  | desc
  deriving DecidableEq, Repr

/-- The keyword of a direction. -/
def SortDirection.keyword : SortDirection → String
  | .asc => "ASC"
  | .desc => "DESC"

/-- A text with its ASCII capitals made small. -/
def asciiLower (s : String) : String := String.ofList (s.toList.map Char.toLower)

/-- The direction of a name in any case. -/
def SortDirection.ofName (name : String) : Except DecodeError SortDirection :=
  match asciiLower name with
  | "asc" => .ok .asc
  | "desc" => .ok .desc
  | other => .error (.unknownOrder other)

/-- One sort key. -/
structure SortEntry where
  field : String
  direction : SortDirection
  deriving DecidableEq, Repr

/-! ## Reading sort keys -/

/-- The direction of an object, if it gives one; its mode has no effect. -/
def sortOptions : Record (Option String) where
  name := "SortOptions"
  fields := ["order", "mode"]
  required := []
  start := none
  set name o order :=
    match name with
    | "order" => Decoder.optional Decoder.string o
    | _ => (Decoder.optional Decoder.string o).map fun _ => order

/-- Reads the name of a direction, if one is given. The value is read in full before it is looked
at, and whatever is wrong with it then is one and the same error. -/
def decodeOrder : Decoder (Option String) := fun o => do
  let o ← orMalformed o.buffered
  match Decoder.string o with
  | .ok name => return some name
  | .error _ =>
    match sortOptions.decode o with
    | .ok order => return order
    | .error _ => throw (.noVariant "SortSpec")

/-- The direction of a name, ascending if there is none. -/
def directionOf : Option String → Except DecodeError SortDirection
  | some name => SortDirection.ofName name
  | none => .ok .asc

/-- Reads the keys of an object, one for each member. -/
def decodeEntries : List (Except Malformed String × Outline) → Ending →
    Except DecodeError (List SortEntry)
  | [], ending => (orMalformed ending.next).map fun _ => []
  | (field, o) :: rest, ending => do
    let field ← orMalformed field
    let order ← decodeOrder o
    let direction ← directionOf order
    let entries ← decodeEntries rest ending
    return ⟨field, direction⟩ :: entries

/-- Reads the keys that one element of the list names. -/
def decodeSortItem : Decoder (List SortEntry)
  | .string field => .ok [⟨field, .asc⟩]
  | .object ms ending => decodeEntries ms ending
  | o => .error (o.mismatch "a field name or a field-to-order object")

/-- Reads a list of sort keys; `null` is the empty list. -/
def decodeSort : Decoder (List SortEntry)
  | .null => .ok []
  | .array os ending => (Decoder.items decodeSortItem os ending).map List.flatten
  | o => .error (o.mismatch "a list of sort fields")

end Quarry.Request
