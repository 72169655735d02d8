/-
# Sets of characters

The sets that a pattern can name, as expressions, so that a set of all characters costs no more
than a set of one.

* `CharSet` — an expression for a set. `CharSet.mem` — whether a character is in it.
* `Property` — a property of characters. `Property.ofName?` — a property by its name.
-/
import Quarry.Text.CaseFold
import Quarry.Text.Category

namespace Quarry.Template

open Quarry.Text

/-! ## Properties -/

/-- A property of characters. -/
inductive Property where
  | digit
  | word
  | space
  | any
  | ascii
  | assigned
  /-- The general category is one of some. -/
  | categories (names : List String)
  /-- The character is in one of some ranges. -/
  | ranges (rs : List (Nat × Nat))
  deriving DecidableEq, Repr

/-- Whether a character has a property. -/
def Property.holds (p : Property) (c : Char) : Bool :=
  match p with
  | .digit => isDecimalDigit c
  | .word => isWordChar c
  | .space => isSpaceChar c
  | .any => true
  | .ascii => c.toNat < 128
  | .assigned => category c != "Cn"
  | .categories names => names.contains (category c)
  | .ranges rs => rs.any fun r => r.1 ≤ c.toNat && c.toNat ≤ r.2

/-- The names of general categories with the categories they stand for. -/
def categoryNames : List (List String × List String) :=
  [(["l", "letter"], ["Lu", "Ll", "Lt", "Lm", "Lo"]),
   (["lc", "casedletter"], ["Lu", "Ll", "Lt"]),
   (["lu", "uppercaseletter"], ["Lu"]),
   (["ll", "lowercaseletter"], ["Ll"]),
   (["lt", "titlecaseletter"], ["Lt"]),
   (["lm", "modifierletter"], ["Lm"]),
   (["lo", "otherletter"], ["Lo"]),
   (["m", "mark", "combiningmark"], ["Mn", "Mc", "Me"]),
   (["mn", "nonspacingmark"], ["Mn"]),
   (["mc", "spacingmark"], ["Mc"]),
   (["me", "enclosingmark"], ["Me"]),
   (["n", "number"], ["Nd", "Nl", "No"]),
   (["nd", "decimalnumber", "digit"], ["Nd"]),
   (["nl", "letternumber"], ["Nl"]),
   (["no", "othernumber"], ["No"]),
   (["p", "punctuation", "punct"], ["Pc", "Pd", "Ps", "Pe", "Pi", "Pf", "Po"]),
   (["pc", "connectorpunctuation"], ["Pc"]),
   (["pd", "dashpunctuation"], ["Pd"]),
   (["ps", "openpunctuation"], ["Ps"]),
   (["pe", "closepunctuation"], ["Pe"]),
   (["pi", "initialpunctuation"], ["Pi"]),
   (["pf", "finalpunctuation"], ["Pf"]),
   (["po", "otherpunctuation"], ["Po"]),
   (["s", "symbol"], ["Sm", "Sc", "Sk", "So"]),
   (["sm", "mathsymbol"], ["Sm"]),
   (["sc", "currencysymbol"], ["Sc"]),
   (["sk", "modifiersymbol"], ["Sk"]),
   (["so", "othersymbol"], ["So"]),
   (["z", "separator"], ["Zs", "Zl", "Zp"]),
   (["zs", "spaceseparator"], ["Zs"]),
   (["zl", "lineseparator"], ["Zl"]),
   (["zp", "paragraphseparator"], ["Zp"]),
   (["c", "other"], ["Cc", "Cf", "Cn", "Co"]),
   (["cc", "control", "cntrl"], ["Cc"]),
   (["cf", "format"], ["Cf"]),
   (["cn", "unassigned"], ["Cn"]),
   (["co", "privateuse"], ["Co"])]

/-- The names of scripts with the main ranges of their characters. -/
def scriptNames : List (List String × List (Nat × Nat)) :=
  [(["greek", "grek"],
    [(0x370, 0x373), (0x375, 0x377), (0x37A, 0x37D), (0x37F, 0x37F), (0x384, 0x384),
     (0x386, 0x386), (0x388, 0x38A), (0x38C, 0x38C), (0x38E, 0x3A1), (0x3A3, 0x3E1),
     (0x3F0, 0x3FF), (0x1D26, 0x1D2A), (0x1D5D, 0x1D61), (0x1D66, 0x1D6A), (0x1DBF, 0x1DBF),
     (0x1F00, 0x1F15), (0x1F18, 0x1F1D), (0x1F20, 0x1F45), (0x1F48, 0x1F4D), (0x1F50, 0x1F57),
     (0x1F59, 0x1F59), (0x1F5B, 0x1F5B), (0x1F5D, 0x1F5D), (0x1F5F, 0x1F7D), (0x1F80, 0x1FB4),
     (0x1FB6, 0x1FC4), (0x1FC6, 0x1FD3), (0x1FD6, 0x1FDB), (0x1FDD, 0x1FEF), (0x1FF2, 0x1FF4),
     (0x1FF6, 0x1FFE), (0x2126, 0x2126), (0xAB65, 0xAB65), (0x10140, 0x1018E),
     (0x101A0, 0x101A0), (0x1D200, 0x1D245)]),
   (["latin", "latn"],
    [(0x41, 0x5A), (0x61, 0x7A), (0xAA, 0xAA), (0xBA, 0xBA), (0xC0, 0xD6), (0xD8, 0xF6),
     (0xF8, 0x2B8), (0x2E0, 0x2E4), (0x1D00, 0x1D25), (0x1D2C, 0x1D5C), (0x1D62, 0x1D65),
     (0x1D6B, 0x1D77), (0x1D79, 0x1DBE), (0x1E00, 0x1EFF), (0x2071, 0x2071), (0x207F, 0x207F),
     (0x2090, 0x209C), (0x212A, 0x212B), (0x2132, 0x2132), (0x214E, 0x214E), (0x2160, 0x2188),
     (0x2C60, 0x2C7F), (0xA722, 0xA787), (0xA78B, 0xA7CA), (0xA7D0, 0xA7D1), (0xA7D3, 0xA7D3),
     (0xA7D5, 0xA7D9), (0xA7F2, 0xA7FF), (0xAB30, 0xAB5A), (0xAB5C, 0xAB64), (0xAB66, 0xAB69),
     (0xFB00, 0xFB06), (0xFF21, 0xFF3A), (0xFF41, 0xFF5A)]),
   (["cyrillic", "cyrl"],
    [(0x400, 0x484), (0x487, 0x52F), (0x1C80, 0x1C88), (0x1D2B, 0x1D2B), (0x1D78, 0x1D78),
     (0x2DE0, 0x2DFF), (0xA640, 0xA69F), (0xFE2E, 0xFE2F)]),
   (["armenian", "armn"], [(0x531, 0x556), (0x559, 0x58A), (0x58D, 0x58F), (0xFB13, 0xFB17)]),
   (["hebrew", "hebr"],
    [(0x591, 0x5C7), (0x5D0, 0x5EA), (0x5EF, 0x5F4), (0xFB1D, 0xFB36), (0xFB38, 0xFB3C),
     (0xFB3E, 0xFB3E), (0xFB40, 0xFB41), (0xFB43, 0xFB44), (0xFB46, 0xFB4F)]),
   (["arabic", "arab"],
    [(0x600, 0x604), (0x606, 0x60B), (0x60D, 0x61A), (0x61C, 0x61E), (0x620, 0x63F),
     (0x641, 0x64A), (0x656, 0x66F), (0x671, 0x6DC), (0x6DE, 0x6FF), (0x750, 0x77F)]),
   (["thai"], [(0xE01, 0xE3A), (0xE40, 0xE5B)]),
   (["hangul", "hang"],
    [(0x1100, 0x11FF), (0x302E, 0x302F), (0x3131, 0x318E), (0x3200, 0x321E), (0x3260, 0x327E),
     (0xA960, 0xA97C), (0xAC00, 0xD7A3), (0xD7B0, 0xD7C6), (0xD7CB, 0xD7FB), (0xFFA0, 0xFFBE)]),
   (["hiragana", "hira"], [(0x3041, 0x3096), (0x309D, 0x309F), (0x1B001, 0x1B11F)]),
   (["katakana", "kana"],
    [(0x30A1, 0x30FA), (0x30FD, 0x30FF), (0x31F0, 0x31FF), (0x32D0, 0x32FE), (0x3300, 0x3357),
     (0xFF66, 0xFF6F), (0xFF71, 0xFF9D)]),
   (["han", "hani"],
    [(0x2E80, 0x2E99), (0x2E9B, 0x2EF3), (0x2F00, 0x2FD5), (0x3005, 0x3005), (0x3007, 0x3007),
     (0x3021, 0x3029), (0x3038, 0x303B), (0x3400, 0x4DBF), (0x4E00, 0x9FFF), (0xF900, 0xFA6D),
     (0xFA70, 0xFAD9), (0x20000, 0x2A6DF), (0x2A700, 0x2EBE0), (0x2F800, 0x2FA1D),
     (0x30000, 0x3134A)])]

/-- The properties that are neither categories nor scripts. -/
def otherNames : List (List String × Property) :=
  [(["any"], .any), (["ascii"], .ascii), (["assigned"], .assigned),
   (["alphabetic", "alpha"],
    .categories ["Lu", "Ll", "Lt", "Lm", "Lo", "Nl"]),
   (["uppercase", "upper"], .categories ["Lu"]), (["lowercase", "lower"], .categories ["Ll"]),
   (["whitespace", "wspace", "space"], .space),
   (["asciihexdigit", "ahex"], .ranges [(0x30, 0x39), (0x41, 0x46), (0x61, 0x66)])]

/-- A name without the differences that do not count: case, blanks, hyphens and underscores. -/
def looseName (name : String) : String :=
  let cs := (name.toList.filter fun c => !(c == ' ' || c == '-' || c == '_')).map Char.toLower
  match cs with
  | 'i' :: 's' :: rest => if rest = ['c'] then "isc" else String.ofList rest
  | _ => String.ofList cs

/-- The property with a loose name. -/
def Property.find? (name : String) : Option Property :=
  match categoryNames.find? (·.1.contains name) with
  | some (_, names) => some (.categories names)
  | none => match scriptNames.find? (·.1.contains name) with
    | some (_, rs) => some (.ranges rs)
    | none => (otherNames.find? (·.1.contains name)).map Prod.snd

/-- The property with a name. -/
def Property.ofName? (name : String) : Option Property := Property.find? (looseName name)

/-- The property by the name of a group of properties and a name within it. -/
def Property.ofNames? (group name : String) : Option Property :=
  let name := looseName name
  match looseName group with
  | "generalcategory" | "gc" =>
    (categoryNames.find? (·.1.contains name)).map fun entry => .categories entry.2
  | "script" | "sc" | "scriptextensions" | "scx" =>
    (scriptNames.find? (·.1.contains name)).map fun entry => .ranges entry.2
  | _ => none

/-! ## Sets -/

/-- A set of characters. -/
inductive CharSet where
  | none
  /-- The characters from one to another. -/
  | range (first last : Char)
  | property (p : Property)
  /-- The characters that differ in case only from those of a set. -/
  | folded (s : CharSet)
  | complement (s : CharSet)
  | union (s t : CharSet)
  | inter (s t : CharSet)
  | diff (s t : CharSet)
  | symmDiff (s t : CharSet)
  deriving DecidableEq, Repr

namespace CharSet

/-- The set of one character. -/
def single (c : Char) : CharSet := .range c c

/-- Whether a character is in a set. -/
def mem : CharSet → Char → Bool
  | .none, _ => false
  | .range first last, c => first ≤ c && c ≤ last
  | .property p, c => p.holds c
  | .folded s, c => s.mem c || (caseVariants c).any s.mem
  | .complement s, c => !s.mem c
  | .union s t, c => s.mem c || t.mem c
  | .inter s t, c => s.mem c && t.mem c
  | .diff s t, c => s.mem c && !t.mem c
  | .symmDiff s t, c => s.mem c != t.mem c

end CharSet

end Quarry.Template
