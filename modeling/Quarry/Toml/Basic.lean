/-
# TOML documents

A document is a tree of tables. Its lines build the tree up: a header opens a table, and a pair puts
a value under a key of the table that is open.

* `Node` — a value, or a table. `Entries` — the keys of a table with what stands under them.
* `assign` — puts a value under a dotted key.
* `openAt` — opens a table under a dotted name.
* `Line` — what a line says. `build` — the document of lines.

A table is opened by a header once only, and is not added to from elsewhere.
-/
import Quarry.Text.Digits

namespace Quarry.Toml

/-! ## The tree -/

/-- How a table came about. -/
inductive TableKind where
  /-- By a header, or as the whole document. -/
  | stated
  /-- On the way to a table that a header opens; a header of its own may follow. -/
  | implied
  /-- On the way to a value under a dotted key; dotted keys may add to it. -/
  | dotted
  /-- In braces, where it is complete. -/
  | inline
  deriving DecidableEq, Repr

/-- A value, or a table. -/
inductive Node where
  | string (s : String)
  | int (n : Int)
  /-- A number that is not whole, as it is written. -/
  | float (s : String)
  | bool (b : Bool)
  /-- A date or a time. -/
  | moment
  | array (items : List Node)
  | table (kind : TableKind) (entries : List (String × Node))
  /-- Tables under one name, each opened by a header. -/
  | tables (items : List (List (String × Node)))

/-- The keys of a table with what stands under them. -/
abbrev Entries := List (String × Node)

namespace Entries

/-- What stands under a key. -/
def find? (key : String) (es : Entries) : Option Node := es.lookup key

/-- Puts something under a key, in place of what stands there, or at the end. -/
def set (key : String) (v : Node) : Entries → Entries
  | [] => [(key, v)]
  | (other, w) :: rest =>
    if other = key then (key, v) :: rest else (other, w) :: set key v rest

end Entries

/-- Changes the last of several tables. -/
def changeLast (f : Entries → Option Entries) : List Entries → Option (List Entries)
  | [] => none
  | [es] => (f es).map fun es => [es]
  | es :: rest => (changeLast f rest).map fun rest => es :: rest

/-! ## Pairs -/

/-- A dotted key, or the dotted name of a table. -/
structure KeyPath where
  tables : List String
  last : String
  deriving DecidableEq, Repr

/-- Puts a value under a key at the end of a path of tables. Every table on the way must be open to
dotted keys, and the one that holds the key must have come about by them; the first table is the
one whose pairs are read, and `within` is false of it only. -/
def assignAt (v : Node) (last : String) : (within : Bool) → TableKind → List String → Entries →
    Option Entries
  | within, kind, [], es =>
    if within && kind != .dotted then none
    else if (es.find? last).isSome then none
    else some (es.set last v)
  | _, _, key :: keys, es =>
    match es.find? key with
    | none => (assignAt v last true .dotted keys []).map fun t => es.set key (.table .dotted t)
    | some (.table .dotted t) =>
      (assignAt v last true .dotted keys t).map fun t => es.set key (.table .dotted t)
    | some (.table .implied t) =>
      (assignAt v last true .implied keys t).map fun t => es.set key (.table .implied t)
    | some (.tables ts) =>
      (changeLast (assignAt v last true .stated keys) ts).map fun ts => es.set key (.tables ts)
    | _ => none

/-- Puts a value under a dotted key of a table. -/
def assign (es : Entries) (k : KeyPath) (v : Node) : Option Entries :=
  assignAt v k.last false .stated k.tables es

/-- Puts values under dotted keys, one after another. -/
def assignAll (es : Entries) : List (KeyPath × Node) → Option Entries
  | [] => some es
  | (k, v) :: rest => (assign es k v).bind fun es => assignAll es rest

/-! ## Headers -/

/-- Changes what stands at the end of a path of tables. Tables that are not there come about on the
way; values are not passed through. -/
def openAt (f : Option Node → Option Node) (last : String) : List String → Entries →
    Option Entries
  | [], es => (f (es.find? last)).map fun v => es.set last v
  | key :: keys, es =>
    match es.find? key with
    | none => (openAt f last keys []).map fun t => es.set key (.table .implied t)
    | some (.table .inline _) => none
    | some (.table kind t) => (openAt f last keys t).map fun t => es.set key (.table kind t)
    | some (.tables ts) => (changeLast (openAt f last keys) ts).map fun ts => es.set key (.tables ts)
    | _ => none

/-- What a header opens. -/
inductive Header where
  | table (name : KeyPath)
  /-- One more of the tables under a name. -/
  | element (name : KeyPath)
  deriving DecidableEq, Repr

/-- Opens a table and puts its pairs into it. -/
def openHeader (es : Entries) (pairs : List (KeyPath × Node)) : Header → Option Entries
  | .table name =>
    let fill : Option Node → Option Node := fun
      | none => (assignAll [] pairs).map (.table .stated)
      | some (.table .implied t) => (assignAll t pairs).map (.table .stated)
      | some _ => none
    openAt fill name.last name.tables es
  | .element name =>
    let add : Option Node → Option Node := fun
      | none => (assignAll [] pairs).map fun t => .tables [t]
      | some (.tables ts) => (assignAll [] pairs).map fun t => .tables (ts ++ [t])
      | some _ => none
    openAt add name.last name.tables es

/-! ## Documents -/

/-- What a line says. -/
inductive Line where
  | header (h : Header)
  | pair (k : KeyPath) (v : Node)

/-- The pairs before the first header, and every header with the pairs after it. -/
def sections : List Line → List (KeyPath × Node) × List (Header × List (KeyPath × Node))
  | [] => ([], [])
  | .pair k v :: rest =>
    let (pairs, headed) := sections rest
    ((k, v) :: pairs, headed)
  | .header h :: rest =>
    let (pairs, headed) := sections rest
    ([], (h, pairs) :: headed)

/-- Opens tables one after another. -/
def openAll (es : Entries) : List (Header × List (KeyPath × Node)) → Option Entries
  | [] => some es
  | (h, pairs) :: rest => (openHeader es pairs h).bind fun es => openAll es rest

/-- The document of lines. -/
def build (lines : List Line) : Option Entries :=
  let (pairs, headed) := sections lines
  (assignAll [] pairs).bind fun es => openAll es headed

end Quarry.Toml
