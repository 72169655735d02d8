/-
# White space

The characters that Unicode gives the property `White_Space`, and trimming by them.

* `isBlank` — the property.
* `trim` — a text without the blank characters at its two ends.
* `isAsciiBlank` — the five ASCII blanks of a request body: space, tab, line feed, form feed and
  carriage return.
-/
namespace Quarry.Text

/-- Whether a character is white space in Unicode's sense. -/
def isBlank (c : Char) : Bool :=
  let n := c.toNat
  (0x09 ≤ n && n ≤ 0x0D) || n == 0x20 || n == 0x85 || n == 0xA0 || n == 0x1680 ||
    (0x2000 ≤ n && n ≤ 0x200A) || n == 0x2028 || n == 0x2029 || n == 0x202F || n == 0x205F ||
    n == 0x3000

/-- Whether a byte is one of the five ASCII blanks. -/
def isAsciiBlank (b : UInt8) : Bool :=
  b == 0x20 || b == 0x09 || b == 0x0A || b == 0x0C || b == 0x0D

/-- A text without the blank characters at its end. -/
def trimRight (cs : List Char) : List Char := (cs.reverse.dropWhile isBlank).reverse

/-- A text without the blank characters at its two ends. -/
def trimChars (cs : List Char) : List Char := trimRight (cs.dropWhile isBlank)

/-- A text without the blank characters at its two ends. -/
def trim (s : String) : String := String.ofList (trimChars s.toList)

end Quarry.Text
