/-
# Decoding JSON

Decoders turn the outline of a value into a typed one, meeting members and elements in their order
and stopping at the first problem.

* `DecodeError` — what can be wrong with the content of a value, and its wording.
* `Decoder` — a function from outlines.
* `Decoder.string`, `Decoder.list` and the like — the decoders of plain types.
* `Record` — a record type by its fields. `Record.decode` reads it from an object, whose unknown
  members are passed over, or from an array of the fields in their order.
* `decodeText`, `decodeValue` — decoding a text, and a value already read.
* `ofBytes`, `ofText` — reading the value that a text writes.
-/
import Quarry.Json.Scanner
import Quarry.Text.Quoted

namespace Quarry.Json

open Quarry.Text

/-! ## Errors -/

/-- What a decoder came upon. -/
inductive Found where
  | null
  | bool (b : Bool)
  | number (n : Number)
  | string (s : String)
  | sequence
  | map
  deriving DecidableEq

/-- How a message names what was found. -/
def Found.text : Found → String
  | .null => "null"
  | .bool b => "boolean `" ++ (if b then "true" else "false") ++ "`"
  | .number (.int n) => "integer `" ++ Digits.ofInt n ++ "`"
  | .number (.float x) => "floating point `" ++ floatText x ++ "`"
  | .string s => "string " ++ mention s
  | .sequence => "sequence"
  | .map => "map"

/-- Why a value cannot be decoded. -/
inductive DecodeError where
  /-- The text is not JSON. -/
  | malformed (m : Malformed)
  /-- A value of another type is expected. -/
  | invalidType (found : Found) (expected : String)
  /-- The value is of the right type, but not one of those expected. -/
  | invalidValue (found : Found) (expected : String)
  /-- An array has too few or too many elements. -/
  | invalidLength (length : Nat) (expected : String)
  /-- A required field is absent. -/
  | missingField (name : String)
  /-- A field is given twice. -/
  | duplicateField (name : String)
  /-- A value has none of the forms that are admitted in its place. -/
  | noVariant (name : String)
  /-- A sort order is neither of the two. -/
  | unknownOrder (order : String)
  /-- A list of patterns is empty. -/
  | noPattern
  /-- A document is not an object. -/
  | notAnObject
  deriving DecidableEq

/-- The message for a decoding error. -/
def DecodeError.message : DecodeError → String
  | .malformed m => m.message
  | .invalidType found expected => "invalid type: " ++ found.text ++ ", expected " ++ expected
  | .invalidValue found expected => "invalid value: " ++ found.text ++ ", expected " ++ expected
  | .invalidLength n expected =>
    "invalid length " ++ Digits.ofNat n ++ ", expected " ++ expected
  | .missingField name => "missing field `" ++ name ++ "`"
  | .duplicateField name => "duplicate field `" ++ name ++ "`"
  | .noVariant name => "data did not match any variant of untagged enum " ++ name
  | .unknownOrder order => "Decode error: unknown sort order '" ++ order ++ "'"
  | .noPattern => "index_patterns must not be empty"
  | .notAnObject => "document must be a JSON object"

/-- A function from outlines to typed values. -/
abbrev Decoder (α : Type) := Outline → Except DecodeError α

/-- An account of the form of a text as a decoding error. -/
def orMalformed {α : Type} (x : Except Malformed α) : Except DecodeError α :=
  x.mapError .malformed

/-- The error for a value of an unexpected type. A fault in the value itself comes first, but what
stands inside an array or object is not looked at. -/
def Outline.mismatch (o : Outline) (expected : String) : DecodeError :=
  match o with
  | .null => .invalidType .null expected
  | .bool b => .invalidType (.bool b) expected
  | .number n => .invalidType (.number n) expected
  | .unreadableNumber m => .malformed m
  | .string s => .invalidType (.string s) expected
  | .unreadableString m => .malformed m
  | .array .. => .invalidType .sequence expected
  | .object .. => .invalidType .map expected
  | .broken fault => .malformed fault.read

/-! ## Plain types -/

namespace Decoder

/-- Reads a string. -/
def string : Decoder String
  | .string s => .ok s
  | o => .error (o.mismatch "a string")

/-- Reads a truth value. -/
def boolean : Decoder Bool
  | .bool b => .ok b
  | o => .error (o.mismatch "a boolean")

/-- Reads an unsigned integer of 64 bits. -/
def size : Decoder Nat
  | .number (.int n) =>
    if 0 ≤ n then .ok n.toNat else .error (.invalidValue (.number (.int n)) "usize")
  | o => .error (o.mismatch "usize")

/-- Reads a value, or nothing from `null`. -/
def optional {α : Type} (d : Decoder α) : Decoder (Option α)
  | .null => .ok none
  | o => (d o).map some

/-- Reads the elements of an array up to its end. -/
def items {α : Type} (d : Decoder α) : List Outline → Ending → Except DecodeError (List α)
  | [], ending => (orMalformed ending.next).map fun _ => []
  | o :: rest, ending => do
    let a ← d o
    let rest ← items d rest ending
    return a :: rest

/-- Reads an array. -/
def list {α : Type} (d : Decoder α) : Decoder (List α)
  | .array os ending => items d os ending
  | o => .error (o.mismatch "a sequence")

/-- Reads the members of an object after those already read. -/
def members {α : Type} (d : Decoder α) : Named α → List (Except Malformed String × Outline) →
    Ending → Except DecodeError (Named α)
  | done, [], ending => (orMalformed ending.next).map fun _ => done
  | done, (name, o) :: rest, ending => do
    let name ← orMalformed name
    let a ← d o
    members d (done.insert name a) rest ending

/-- Reads an object whose members are all of one type; of two of one name the later stays. -/
def namedOf {α : Type} (d : Decoder α) : Decoder (Named α)
  | .object ms ending => members d [] ms ending
  | o => .error (o.mismatch "a map")

/-- Reads any value. -/
def anything : Decoder Json := fun o => orMalformed o.toJson

end Decoder

/-! ## Records -/

/-- A record type by its fields. -/
structure Record (ρ : Type) where
  /-- How messages name the type. -/
  name : String
  /-- The fields in their order. -/
  fields : List String
  /-- The fields that must be present. -/
  required : List String
  /-- The record before any field is read. -/
  start : ρ
  /-- Reads one field. -/
  set : String → Outline → ρ → Except DecodeError ρ

namespace Record

variable {ρ : Type}

/-- What is expected where a record is read. -/
def expected (r : Record ρ) : String := "struct " ++ r.name

/-- What is expected where an array is too short for a record. -/
def expectedLength (r : Record ρ) : String :=
  r.expected ++ " with " ++ Digits.ofNat r.fields.length ++
    (if r.fields.length = 1 then " element" else " elements")

/-- Checks that the required fields were seen, in the order of the fields. -/
def checkRequired (seen : List String) : List String → Except DecodeError Unit
  | [] => .ok ()
  | name :: rest =>
    if seen.contains name then checkRequired seen rest else .error (.missingField name)

/-- Reads a record from members. -/
def ofMembers (r : Record ρ) : ρ → List String → List (Except Malformed String × Outline) →
    Ending → Except DecodeError ρ
  | a, seen, [], ending => do
    orMalformed ending.next
    checkRequired seen r.required
    return a
  | a, seen, (name, o) :: rest, ending => do
    let name ← orMalformed name
    if r.fields.contains name then
      if seen.contains name then throw (.duplicateField name)
      let a ← r.set name o a
      ofMembers r a (name :: seen) rest ending
    else
      orMalformed o.skip
      ofMembers r a seen rest ending

/-- The end of an array after the last field: nothing may be left. -/
def finishItems (total : Nat) : List Outline → Ending → Except DecodeError Unit
  | [], .broken _ finish => .error (.malformed finish)
  | [], _ => .ok ()
  | _ :: _, .complete => .error (.invalidLength total "fewer elements in array")
  | _ :: _, _ => .error (.malformed .trailingCharacters)

/-- Reads a record from elements, one for each field in turn. -/
def ofItems (r : Record ρ) (total : Nat) : ρ → Nat → List String → List Outline → Ending →
    Except DecodeError ρ
  | a, _, [], os, ending => do
    finishItems total os ending
    return a
  | a, i, name :: names, [], ending => do
    orMalformed ending.next
    if r.required.contains name then throw (.invalidLength i r.expectedLength)
    ofItems r total a (i + 1) names [] ending
  | a, i, name :: names, o :: rest, ending => do
    let a ← r.set name o a
    ofItems r total a (i + 1) names rest ending

/-- Reads a record from an object, or from an array of its fields. -/
def decode (r : Record ρ) : Decoder ρ
  | .object ms ending => r.ofMembers r.start [] ms ending
  | .array os ending => r.ofItems os.length r.start 0 r.fields os ending
  | o => .error (o.mismatch r.expected)

/-- Reads a record from an object only. -/
def decodeObject (r : Record ρ) (expected : String) : Decoder ρ
  | .object ms ending => r.ofMembers r.start [] ms ending
  | o => .error (o.mismatch expected)

end Record

/-! ## Texts and values -/

/-- Decodes a text, after which nothing but blanks may follow. -/
def decodeText {α : Type} (d : Decoder α) (bs : List UInt8) : Except DecodeError α := do
  let s := scan bs
  let a ← d s.outline
  if s.trailing then throw (.malformed .trailingCharacters)
  return a

/-- Decodes a value. -/
def decodeValue {α : Type} (d : Decoder α) (v : Json) : Except DecodeError α := d (.ofJson v)

/-- Reads the value a text writes. -/
def ofBytes (bs : List UInt8) : Except DecodeError Json := decodeText Decoder.anything bs

/-- Reads the value a text writes. -/
def ofText (s : String) : Except DecodeError Json := ofBytes (Utf8.encode s)

end Quarry.Json
