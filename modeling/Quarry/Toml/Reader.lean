/-
# Reading TOML

* `value?` — the value at the start of a text.
* `lines?` — the lines of a text.
* `ofText?` — the document that a text writes.
-/
import Quarry.Toml.Token

namespace Quarry.Toml

/-! ## Values -/

/-- How deep arrays and tables in braces may be nested. -/
def depthLimit : Nat := 80

/-- Reads a value that has no parts. -/
def scalar? (cs : List Char) : Option (Node × List Char) :=
  match cs with
  | 't' :: 'r' :: 'u' :: 'e' :: cs => some (.bool true, cs)
  | 'f' :: 'a' :: 'l' :: 's' :: 'e' :: cs => some (.bool false, cs)
  | _ =>
    match string? cs with
    | some (s, cs) => some (.string s, cs)
    | none =>
      match moment? cs with
      | some cs => some (.moment, cs)
      | none =>
        match float? cs with
        | some (s, cs) => some (.float s, cs)
        | none => (int? cs).map fun (n, cs) => (.int n, cs)

mutual

/-- Reads a value; the second argument is how deep values may still be nested. -/
def valueFrom? : Nat → Nat → List Char → Option (Node × List Char)
  | 0, _, _ => none
  | fuel + 1, depth, cs =>
    match cs with
    | '[' :: cs =>
      if depth = 0 then none
      else (itemsFrom? fuel (depth - 1) cs).map fun (vs, cs) => (.array vs, cs)
    | '{' :: cs =>
      if depth = 0 then none
      else match skipBlanks cs with
        | '}' :: cs => some (.table .inline [], cs)
        | _ => do
          let (pairs, cs) ← pairsFrom? fuel (depth - 1) cs
          let es ← assignAll [] pairs
          return (.table .inline es, cs)
    | _ => scalar? cs

/-- Reads the items of an array up to its end. -/
def itemsFrom? : Nat → Nat → List Char → Option (List Node × List Char)
  | 0, _, _ => none
  | fuel + 1, depth, cs =>
    match skipFiller cs with
    | ']' :: cs => some ([], cs)
    | cs => do
      let (v, cs) ← valueFrom? fuel depth cs
      match skipFiller cs with
      | ',' :: cs =>
        let (vs, cs) ← itemsFrom? fuel depth cs
        return (v :: vs, cs)
      | ']' :: cs => return ([v], cs)
      | _ => none

/-- Reads the pairs of a table in braces, at least one, up to its end. -/
def pairsFrom? : Nat → Nat → List Char → Option (List (KeyPath × Node) × List Char)
  | 0, _, _ => none
  | fuel + 1, depth, cs => do
    let (k, cs) ← keyPath? cs
    let (v, cs) ← valueFrom? fuel depth (skipBlanks (← after? '=' cs))
    match skipBlanks cs with
    | ',' :: cs =>
      let (pairs, cs) ← pairsFrom? fuel depth cs
      return ((k, v) :: pairs, cs)
    | '}' :: cs => return ([(k, v)], cs)
    | _ => none

end

/-- Reads a value. Every call of the readers but one in two takes a character. -/
def value? (cs : List Char) : Option (Node × List Char) :=
  valueFrom? (2 * cs.length + 2) depthLimit cs

/-! ## Lines -/

/-- Reads a header after its first bracket. -/
def header? (cs : List Char) : Option (Header × List Char) :=
  match cs with
  | '[' :: cs => do
    let (name, cs) ← keyPath? cs
    let cs ← after? ']' (← after? ']' cs)
    return (.element name, cs)
  | _ => do
    let (name, cs) ← keyPath? cs
    let cs ← after? ']' cs
    return (.table name, cs)

/-- Reads a line that says something, without its end. -/
def line? (cs : List Char) : Option (Line × List Char) :=
  match cs with
  | '[' :: cs => (header? cs).map fun (h, cs) => (.header h, cs)
  | _ => do
    let (k, cs) ← keyPath? cs
    let (v, cs) ← value? (skipBlanks (← after? '=' cs))
    return (.pair k v, cs)

/-- Reads lines up to the end of a text; the first argument bounds their number. -/
def linesFrom? : Nat → List Char → Option (List Line)
  | 0, _ => none
  | fuel + 1, cs =>
    match skipFiller cs with
    | [] => some []
    | '#' :: cs => if (lineEnd? ('#' :: cs)) = some [] then some [] else none
    | cs => do
      let (line, cs) ← line? cs
      let lines ← linesFrom? fuel (← lineEnd? cs)
      return line :: lines

/-- Reads the lines of a text. -/
def lines? (cs : List Char) : Option (List Line) := linesFrom? (cs.length + 1) cs

/-- The text after a byte order mark. -/
def skipMark : List Char → List Char
  | c :: cs => if c.toNat = 0xFEFF then cs else c :: cs
  | [] => []

/-- The document that a text writes. -/
def ofText? (s : String) : Option Entries := (lines? (skipMark s.toList)).bind build

end Quarry.Toml
