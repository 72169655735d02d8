/-
# UTF-8

Bytes and the characters they encode.

* `decode` — the characters of a byte sequence, or where and how it stops being UTF-8.
* `Fault` — a place that is not UTF-8: either some bytes there that start no character, or a
  character cut off by the end of the sequence.
* `encode` — the bytes of a text.
-/
import Quarry.Text.Digits

namespace Quarry.Text.Utf8

/-- Where a byte sequence stops being UTF-8. -/
structure Fault where
  /-- The number of bytes before it, all of which decode. -/
  index : Nat
  /-- The number of bytes that are certainly wrong; `none` when the sequence just ends too early. -/
  length : Option Nat
  deriving DecidableEq, Repr

/-- The message that describes a fault. -/
def Fault.message (f : Fault) : String :=
  match f.length with
  | some n =>
    "invalid utf-8 sequence of " ++ Digits.ofNat n ++ " bytes from index " ++ Digits.ofNat f.index
  | none => "incomplete utf-8 byte sequence from index " ++ Digits.ofNat f.index

/-- Whether a byte may follow the first byte of a character. -/
def isContinuation (b : UInt8) : Bool := 0x80 ≤ b && b ≤ 0xBF

/-- The low six bits of a continuation byte. -/
def payload (b : UInt8) : Nat := b.toNat % 64

/-- The bytes that may come second in a character of three bytes. -/
def secondOfThree (a b : UInt8) : Bool :=
  if a == 0xE0 then 0xA0 ≤ b && b ≤ 0xBF
  else if a == 0xED then 0x80 ≤ b && b ≤ 0x9F
  else isContinuation b

/-- The bytes that may come second in a character of four bytes. -/
def secondOfFour (a b : UInt8) : Bool :=
  if a == 0xF0 then 0x90 ≤ b && b ≤ 0xBF
  else if a == 0xF4 then 0x80 ≤ b && b ≤ 0x8F
  else isContinuation b

/-- What stands at the start of a byte sequence. -/
inductive Step where
  /-- A character, and the bytes after it. -/
  | char (c : Char) (size : Nat) (rest : List UInt8)
  /-- No character; the length is that of `Fault`. -/
  | fault (length : Option Nat)

/-- Reads the character at the start of a non-empty byte sequence. -/
def step (a : UInt8) (bs : List UInt8) : Step :=
  if a < 0x80 then .char (Char.ofNat a.toNat) 1 bs
  else if 0xC2 ≤ a && a ≤ 0xDF then
    match bs with
    | [] => .fault none
    | b :: bs =>
      if isContinuation b then .char (Char.ofNat (a.toNat % 32 * 64 + payload b)) 2 bs
      else .fault (some 1)
  else if 0xE0 ≤ a && a ≤ 0xEF then
    match bs with
    | [] => .fault none
    | b :: bs =>
      if secondOfThree a b then
        match bs with
        | [] => .fault none
        | c :: bs =>
          if isContinuation c then
            .char (Char.ofNat (a.toNat % 16 * 4096 + payload b * 64 + payload c)) 3 bs
          else .fault (some 2)
      else .fault (some 1)
  else if 0xF0 ≤ a && a ≤ 0xF4 then
    match bs with
    | [] => .fault none
    | b :: bs =>
      if secondOfFour a b then
        match bs with
        | [] => .fault none
        | c :: bs =>
          if isContinuation c then
            match bs with
            | [] => .fault none
            | d :: bs =>
              if isContinuation d then
                .char (Char.ofNat
                  (a.toNat % 8 * 262144 + payload b * 4096 + payload c * 64 + payload d)) 4 bs
              else .fault (some 3)
          else .fault (some 2)
      else .fault (some 1)
  else .fault (some 1)

/-- Reads characters until the bytes end; `read` holds the characters already read, last first,
and `index` the bytes they took. The first argument bounds the number of characters. -/
def decodeFrom : Nat → List Char → Nat → List UInt8 → Except Fault (List Char)
  | _, read, _, [] => .ok read.reverse
  | 0, _, index, _ :: _ => .error ⟨index, some 1⟩
  | fuel + 1, read, index, b :: bs =>
    match step b bs with
    | .char c size rest => decodeFrom fuel (c :: read) (index + size) rest
    | .fault length => .error ⟨index, length⟩

/-- The text that a byte sequence encodes. -/
def decode (bs : List UInt8) : Except Fault String :=
  (decodeFrom bs.length [] 0 bs).map String.ofList

/-- The bytes that encode a text. -/
def encode (s : String) : List UInt8 := s.toUTF8.toList

end Quarry.Text.Utf8
