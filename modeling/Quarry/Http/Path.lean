/-
# Paths

A path is cut into segments as it is written; a segment is decoded only when it is used.

* `segments?` — the segments of a path.
* `decodePercent` — the bytes of a segment, in which `%` and two hexadecimal digits are one byte.
* `Segment.decoded` — the text of a segment.
-/
import Quarry.Text.Split
import Quarry.Text.Utf8

namespace Quarry.Http

open Quarry.Text

/-! ## Segments -/

/-- A segment of a path, as it is written. -/
structure Segment where
  written : String
  deriving DecidableEq, Repr

/-- The path without the query and the fragment that may follow it. -/
def pathChars (path : String) : List Char :=
  path.toList.takeWhile fun c => c != '?' && c != '#'

/-- The segments of a path, none of which is empty. The path of the root has none. -/
def segments? (path : String) : Option (List Segment) :=
  match pathChars path with
  | ['/'] => some []
  | '/' :: cs =>
    let pieces := pieces '/' cs
    if pieces.any List.isEmpty then none else some (pieces.map fun p => ⟨String.ofList p⟩)
  | _ => none

/-! ## Decoding -/

/-- The value of a hexadecimal digit. -/
def hexByte? (b : UInt8) : Option UInt8 :=
  (Digits.hexDigit? (Char.ofNat b.toNat)).map Nat.toUInt8

/-- The bytes that a segment stands for. A `%` that is not followed by two hexadecimal digits
stands for itself. -/
def decodePercent : List UInt8 → List UInt8
  | 0x25 :: b :: c :: rest =>
    match hexByte? b, hexByte? c with
    | some high, some low => (high * 16 + low) :: decodePercent rest
    | _, _ => 0x25 :: decodePercent (b :: c :: rest)
  | a :: rest => a :: decodePercent rest
  | [] => []

/-- The text of a segment, if it is text. -/
def Segment.decoded (s : Segment) : Except Utf8.Fault String :=
  Utf8.decode (decodePercent (Utf8.encode s.written))

end Quarry.Http
