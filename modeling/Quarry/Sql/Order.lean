/-
# The order of values

* `SortKey` — what counts when values are compared: nothing, the exact number, or the text.
* `Cell.sortKey` — the key of a value. Missing values come first, then numbers, then texts.
* `sortStable` — sorting that keeps the order of equals.
* `gather` — the members of a list in groups of one key.
-/
import Quarry.Result.Cell

namespace Quarry.Sql

open Quarry.Decimal Quarry.Result

/-! ## Keys -/

/-- What counts when values are compared. -/
inductive SortKey where
  | null
  /-- A number, as a multiple of the least positive float. -/
  | number (n : Int)
  | text (s : String)
  deriving DecidableEq, Repr

/-- The number of least positive floats in one. -/
def unitsOfOne : Int := 1 <<< 1074

/-- More units than any finite float has. -/
def unitsOfInfinity : Int := 1 <<< 2200

/-- The key of a float; an undefined number is a missing value. -/
def floatKey : Binary64 → SortKey
  | .nan => .null
  | .infinite negative => .number (if negative then -unitsOfInfinity else unitsOfInfinity)
  | .finite negative m e =>
    .number (Binary64.signed negative (m <<< (e - Binary64.leastExponent).toNat))

/-- The key of a value. -/
def sortKey : Cell → SortKey
  | .null => .null
  | .int n => .number (n * unitsOfOne)
  | .float x => floatKey (.ofFloat x)
  | .text s => .text s

/-- The order of keys. -/
def SortKey.compare : SortKey → SortKey → Ordering
  | .null, .null => .eq
  | .null, _ => .lt
  | .number _, .null => .gt
  | .number a, .number b => Ord.compare a b
  | .number _, .text _ => .lt
  | .text a, .text b => Ord.compare a b
  | .text _, _ => .gt

/-! ## Sorting -/

section

variable {α κ : Type}

/-- Puts a member into a sorted list, before the first one that comes after it. -/
def insertSorted (before : α → α → Bool) (a : α) : List α → List α
  | [] => [a]
  | b :: rest => if before b a then b :: insertSorted before a rest else a :: b :: rest

/-- Sorts a list; `strict a b` says that `a` must come before `b`. Equals keep their order. -/
def sortStable (strict : α → α → Bool) : List α → List α
  | [] => []
  | a :: rest => insertSorted strict a (sortStable strict rest)

/-! ## Grouping -/

/-- Adds a member to the group of its key, or as the first of a new group at the end. -/
def gatherOne [DecidableEq κ] (k : κ) (a : α) : List (κ × List α) → List (κ × List α)
  | [] => [(k, [a])]
  | (l, as) :: rest => if k = l then (l, as ++ [a]) :: rest else (l, as) :: gatherOne k a rest

/-- The members of a list in groups of one key, in the order of first members. -/
def gather [DecidableEq κ] (members : List (κ × α)) : List (κ × List α) :=
  members.foldl (fun groups (k, a) => gatherOne k a groups) []

end

end Quarry.Sql
