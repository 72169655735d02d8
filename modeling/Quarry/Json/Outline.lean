/-
# Outlines of JSON texts

What is known of a text after one pass from left to right: the value it writes, as far as it can
be made out, with every fault kept at the place where it stands. A decoder that walks an outline in
order meets the faults in the order in which they stand in the text, so the first problem of
either kind, of form or of content, is the one reported.

* `Outline` — a value with its faults.
* `Fault` — a fault in the form of a text. A reader that only passes over a value is less strict
  than one that reads it, so there are two accounts of it.
* `Outline.skip` — passes over a value.
* `Outline.toJson` — reads a value as it is.
* `Outline.ofJson` — the outline of a value, without any fault.
* `Outline.buffered` — an outline read in full, ahead of what is then done with it.
-/
import Quarry.Json.Basic

namespace Quarry.Json

/-- A fault in the form of a text. -/
structure Fault where
  /-- What a reader of the value reports. -/
  read : Malformed
  /-- What a reader that passes over the value reports. -/
  skip : Malformed
  deriving DecidableEq, Repr

/-- A fault that every reader reports in the same way. -/
def Fault.plain (m : Malformed) : Fault := ⟨m, m⟩

/-- How the elements of an array or the members of an object end. -/
inductive Ending where
  /-- With a closing bracket or brace. -/
  | closed
  /-- With a closing bracket, in a value that is complete already. -/
  | complete
  /-- With a fault; the last account is that of a reader that expects nothing more. -/
  | broken (fault : Fault) (finish : Malformed)
  deriving DecidableEq, Repr

/-- A value of a text with the faults of the text. -/
inductive Outline where
  | null
  | bool (b : Bool)
  /-- A number, by its numeral. -/
  | number (n : Number)
  /-- A numeral that stands for no number. -/
  | unreadableNumber (m : Malformed)
  | string (s : String)
  /-- A string that can be passed over but not read. -/
  | unreadableString (m : Malformed)
  | array (items : List Outline) (ending : Ending)
  | object (members : List (Except Malformed String × Outline)) (ending : Ending)
  /-- No value can be made out. -/
  | broken (fault : Fault)

/-! ## Passing over a value -/

/-- The fault with which elements end, for a reader that passes over them. -/
def Ending.skip : Ending → Except Malformed Unit
  | .broken fault _ => .error fault.skip
  | _ => .ok ()

/-- The fault with which elements end, for a reader of the next one. -/
def Ending.next : Ending → Except Malformed Unit
  | .broken fault _ => .error fault.read
  | _ => .ok ()

namespace Outline

mutual

/-- Passes over a value. -/
def skip : Outline → Except Malformed Unit
  | .array items ending => do skipItems items; ending.skip
  | .object members ending => do skipMembers members; ending.skip
  | .broken fault => .error fault.skip
  | _ => .ok ()

/-- Passes over some elements. -/
def skipItems : List Outline → Except Malformed Unit
  | [] => .ok ()
  | o :: rest => do o.skip; skipItems rest

/-- Passes over some members. -/
def skipMembers : List (Except Malformed String × Outline) → Except Malformed Unit
  | [] => .ok ()
  | (_, o) :: rest => do o.skip; skipMembers rest

end

/-! ## Reading a value as it is -/

mutual

/-- Reads a value. -/
def toJson : Outline → Except Malformed Json
  | .null => .ok .null
  | .bool b => .ok (.bool b)
  | .number n => .ok (.number n)
  | .unreadableNumber m => .error m
  | .string s => .ok (.string s)
  | .unreadableString m => .error m
  | .array items ending => do
    let values ← itemsToJson items
    ending.next
    return .array values
  | .object members ending => do
    let values ← membersToJson [] members
    ending.next
    return .object values
  | .broken fault => .error fault.read

/-- Reads some elements. -/
def itemsToJson : List Outline → Except Malformed (List Json)
  | [] => .ok []
  | o :: rest => do
    let v ← o.toJson
    let values ← itemsToJson rest
    return v :: values

/-- Reads some members after those already read; of two of one name the later stays. -/
def membersToJson : Named Json → List (Except Malformed String × Outline) →
    Except Malformed (Named Json)
  | done, [] => .ok done
  | done, (name, o) :: rest => do
    let name ← name
    let v ← o.toJson
    membersToJson (done.insert name v) rest

end

/-! ## Outlines without faults -/

mutual

/-- The outline of a value. -/
def ofJson : Json → Outline
  | .null => .null
  | .bool b => .bool b
  | .number n => .number n
  | .string s => .string s
  | .array items => .array (itemsOfJson items) .complete
  | .object members => .object (membersOfJson members) .complete

/-- The outlines of some values. -/
def itemsOfJson : List Json → List Outline
  | [] => []
  | v :: rest => ofJson v :: itemsOfJson rest

/-- The outlines of some members. -/
def membersOfJson : List (String × Json) → List (Except Malformed String × Outline)
  | [] => []
  | (name, v) :: rest => (.ok name, ofJson v) :: membersOfJson rest

end

mutual

/-- Reads a value in full; the outline of what was read keeps repeated names. -/
def buffered : Outline → Except Malformed Outline
  | .unreadableNumber m => .error m
  | .unreadableString m => .error m
  | .array items ending => do
    let items ← bufferedItems items
    ending.next
    return .array items .complete
  | .object members ending => do
    let members ← bufferedMembers members
    ending.next
    return .object members .complete
  | .broken fault => .error fault.read
  | o => .ok o

/-- Reads some elements in full. -/
def bufferedItems : List Outline → Except Malformed (List Outline)
  | [] => .ok []
  | o :: rest => do
    let o ← o.buffered
    let rest ← bufferedItems rest
    return o :: rest

/-- Reads some members in full. -/
def bufferedMembers : List (Except Malformed String × Outline) →
    Except Malformed (List (Except Malformed String × Outline))
  | [] => .ok []
  | (name, o) :: rest => do
    let name ← name
    let o ← o.buffered
    let rest ← bufferedMembers rest
    return (.ok name, o) :: rest

end

/-! ## Nesting -/

mutual

/-- The number of arrays and objects that stand inside one another, the innermost value
included. -/
def height : Outline → Nat
  | .array items _ => itemsHeight items + 1
  | .object members _ => membersHeight members + 1
  | _ => 1

/-- The greatest height of some elements. -/
def itemsHeight : List Outline → Nat
  | [] => 0
  | o :: rest => max o.height (itemsHeight rest)

/-- The greatest height of some members. -/
def membersHeight : List (Except Malformed String × Outline) → Nat
  | [] => 0
  | (_, o) :: rest => max o.height (membersHeight rest)

end

end Outline

end Quarry.Json
