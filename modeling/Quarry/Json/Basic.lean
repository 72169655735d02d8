/-
# JSON values

* `Json` — a JSON value. The members of an object that was read stand in ascending order of their
  names; those of an answer stand in the order of its fields.
* `Named.insert`, `Named.get?` — things by name; of two under one name the later stays.
* `Json.ofMembers` — an object with its members in order.
-/
import Quarry.Json.Number

namespace Quarry

/-- A JSON value. -/
inductive Json where
  | null
  | bool (b : Bool)
  | number (n : Json.Number)
  | string (s : String)
  | array (items : List Json)
  | object (members : List (String × Json))
  deriving Inhabited

/-- A list of named things in ascending order of the names, no name twice. Names are ordered by
code point, which is also the order of their UTF-8 bytes. -/
abbrev Named (α : Type) := List (String × α)

namespace Named

variable {α β : Type}

/-- Puts a thing under a name, in place of one already there. -/
def insert (name : String) (a : α) : Named α → Named α
  | [] => [(name, a)]
  | (other, b) :: rest =>
    if name < other then (name, a) :: (other, b) :: rest
    else if name = other then (name, a) :: rest
    else (other, b) :: insert name a rest

/-- The thing under a name. -/
def get? (name : String) : Named α → Option α
  | [] => none
  | (other, b) :: rest => if name = other then some b else get? name rest

/-- The named things of a list; of two under one name the later stays. -/
def ofList (entries : List (String × α)) : Named α :=
  entries.foldl (fun named (name, a) => named.insert name a) []

/-- The names, in ascending order. -/
def names (named : Named α) : List String := named.map Prod.fst

/-- Applies a function to every thing. -/
def mapValues (f : α → β) (named : Named α) : Named β := named.map fun (name, a) => (name, f a)

@[simp] theorem get?_insert_self (name : String) (a : α) (named : Named α) :
    get? name (insert name a named) = some a := by
  induction named with
  | nil => simp [insert, get?]
  | cons entry rest ih =>
    obtain ⟨other, b⟩ := entry
    unfold insert
    split
    · simp [get?]
    · split
      · simp [get?]
      · rename_i h
        simp [get?, h, ih]

theorem get?_insert_of_ne {name other : String} (h : other ≠ name) (a : α) (named : Named α) :
    get? other (insert name a named) = get? other named := by
  induction named with
  | nil => simp [insert, get?, h]
  | cons entry rest ih =>
    obtain ⟨first, b⟩ := entry
    unfold insert
    split
    · simp [get?, h]
    · split
      · rename_i hn
        subst hn
        simp [get?, h]
      · simp only [get?, ih]

end Named

namespace Json

/-- An integer. -/
def ofInt (n : Int) : Json := .number (.int n)

/-- A natural number. -/
def ofNat (n : Nat) : Json := .number (.int n)

/-- A floating point number; one that is not finite has no JSON form. -/
def ofFloat (x : Float) : Json :=
  if (Decimal.Binary64.ofFloat x).isFinite then .number (.float x) else .null

/-- An object with the members given, sorted by name. -/
def ofMembers (members : List (String × Json)) : Json := .object (Named.ofList members)

/-- Whether the value is an object. -/
def isObject : Json → Bool
  | .object _ => true
  | _ => false

end Json

end Quarry
