/-
# Writing TOML

* `quoted` — a string in the plainest kind of marks that can hold it.
* `arrayText` — an array of strings; two or more stand on lines of their own.
* `sectionText` — a header with its pairs.
-/
import Quarry.Text.Digits

namespace Quarry.Toml

open Quarry.Text

/-! ## Strings -/

/-- Whether a character can only be written by an escape. -/
def needsEscape (c : Char) : Bool :=
  (c.toNat < 0x20 && c != '\t' && c != '\n') || c.toNat == 0x7F

/-- The greatest number of marks in a row; the first argument counts those that have just been
passed. -/
def longestRun (mark : Char) : Nat → List Char → Nat
  | run, [] => run
  | run, c :: cs => if c = mark then longestRun mark (run + 1) cs else max run (longestRun mark 0 cs)

/-- A code of four upper-case hexadecimal digits at least. -/
def codeChars (c : Char) : List Char :=
  let hex := (Digits.hexChars c.toNat).map Char.toUpper
  List.replicate (4 - hex.length) '0' ++ hex

/-- Writes the characters of a string between quotation marks. `marks` quotation marks in a row may
stand as they are, of which `run` have just been written; an end of a line may stand as it is if
`block` says so. -/
def escaped (marks : Nat) (block : Bool) : (run : Nat) → List Char → List Char
  | _, [] => []
  | run, c :: cs =>
    if c = '"' then
      if run < marks then c :: escaped marks block (run + 1) cs
      else '\\' :: c :: escaped marks block 0 cs
    else (match c with
      | '\\' => ['\\', '\\']
      | '\t' => ['\\', 't']
      | '\n' => if block then [c] else ['\\', 'n']
      | '\r' => ['\\', 'r']
      | _ =>
        if c.toNat = 8 then ['\\', 'b']
        else if c.toNat = 12 then ['\\', 'f']
        else if needsEscape c then '\\' :: 'u' :: codeChars c
        else [c]) ++ escaped marks block 0 cs

/-- Three marks, and the end of a line after them if the string has several. -/
def blockOpening (mark : Char) (cs : List Char) : List Char :=
  List.replicate 3 mark ++ if cs.contains '\n' then ['\n'] else []

/-- A string between quotation marks, on one line. -/
def lineQuoted (cs : List Char) : List Char := '"' :: escaped 0 false 0 cs ++ ['"']

/-- A string between three quotation marks each. -/
def blockQuoted (cs : List Char) : List Char :=
  blockOpening '"' cs ++ escaped 2 true 0 cs ++ List.replicate 3 '"'

/-- A string between apostrophes, as it is. -/
def lineLiteral (cs : List Char) : List Char := '\'' :: cs ++ ['\'']

/-- A string between three apostrophes each, as it is. -/
def blockLiteral (cs : List Char) : List Char :=
  blockOpening '\'' cs ++ cs ++ List.replicate 3 '\''

/-- A string in marks: those that need no escape are preferred, then those that stand on one line,
then quotation marks. -/
def quotedChars (cs : List Char) : List Char :=
  let controls := cs.any needsEscape
  let backslash := cs.contains '\\'
  let newline := cs.contains '\n'
  let quotes := longestRun '"' 0 cs
  let apostrophes := longestRun '\'' 0 cs
  if !controls && !backslash && quotes == 0 && !newline then lineQuoted cs
  else if !controls && apostrophes == 0 && !newline then lineLiteral cs
  else if !controls && !backslash && quotes ≤ 2 then blockQuoted cs
  else if !controls && apostrophes ≤ 2 then blockLiteral cs
  else if newline then blockQuoted cs
  else lineQuoted cs

/-- A string in marks. -/
def quoted (s : String) : String := String.ofList (quotedChars s.toList)

/-! ## Arrays, pairs and sections -/

/-- An array of strings. -/
def arrayText : List String → String
  | [] => "[]"
  | [s] => "[" ++ quoted s ++ "]"
  | ss => "[\n" ++ String.join (ss.map fun s => "    " ++ quoted s ++ ",\n") ++ "]"

/-- A truth value. -/
def boolText (b : Bool) : String := if b then "true" else "false"

/-- A header with pairs of keys and values that are already written. -/
def sectionText (name : String) (pairs : List (String × String)) : String :=
  "[" ++ name ++ "]\n" ++ String.join (pairs.map fun (key, v) => key ++ " = " ++ v ++ "\n")

end Quarry.Toml
