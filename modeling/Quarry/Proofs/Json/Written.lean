/-
# The text of a value

* `Json.Writable` — what a value must be to be read from its text as it was written.
* `Json.Valid` — what it must be to have a text of its own.
* `Json.nesting` — how deeply arrays and objects stand inside one another.
* `Json.bytes` — the bytes of the text of a value, by what the value is made of.
* `Json.bytes_eq_cons` — the byte with which the text of a value starts.
-/
import Quarry.Proofs.Json.Named
import Quarry.Proofs.Json.Numerals

namespace Quarry

open Quarry.Decimal Quarry.Json.Scanner Quarry.Text Quarry.Text.Utf8

namespace Json

/-! ## Values with a text -/

/-- Integers have 64 bits, and floats are finite. -/
inductive Writable : Json → Prop where
  | null : Writable .null
  | bool (b : Bool) : Writable (.bool b)
  | int (n : Int) (h : -9223372036854775808 ≤ n ∧ n ≤ 18446744073709551615) :
      Writable (.number (.int n))
  | float (x : Float) (h : (Binary64.ofFloat x).isFinite = true) : Writable (.number (.float x))
  | string (s : String) : Writable (.string s)
  | array (items : List Json) (h : ∀ v ∈ items, Writable v) : Writable (.array items)
  | object (members : List (String × Json)) (h : ∀ m ∈ members, Writable m.2) :
      Writable (.object members)

/-- Integers have 64 bits, floats are finite, and the names of members ascend. -/
inductive Valid : Json → Prop where
  | null : Valid .null
  | bool (b : Bool) : Valid (.bool b)
  | int (n : Int) (h : -9223372036854775808 ≤ n ∧ n ≤ 18446744073709551615) :
      Valid (.number (.int n))
  | float (x : Float) (h : (Binary64.ofFloat x).isFinite = true) : Valid (.number (.float x))
  | string (s : String) : Valid (.string s)
  | array (items : List Json) (h : ∀ v ∈ items, Valid v) : Valid (.array items)
  | object (members : List (String × Json)) (hnames : Named.Ascending members)
      (h : ∀ m ∈ members, Valid m.2) : Valid (.object members)

theorem Valid.writable {v : Json} (h : v.Valid) : v.Writable := by
  induction h with
  | null => exact .null
  | bool b => exact .bool b
  | int n h => exact .int n h
  | float x h => exact .float x h
  | string s => exact .string s
  | array items h ih => exact .array items ih
  | object members hnames h ih => exact .object members ih

mutual

/-- How deeply arrays and objects stand inside one another. -/
def nesting : Json → Nat
  | .array items => itemsNesting items + 1
  | .object members => membersNesting members + 1
  | _ => 0

/-- The deepest nesting of some elements. -/
def itemsNesting : List Json → Nat
  | [] => 0
  | v :: rest => max v.nesting (itemsNesting rest)

/-- The deepest nesting of some members. -/
def membersNesting : List (String × Json) → Nat
  | [] => 0
  | (_, v) :: rest => max v.nesting (membersNesting rest)

end

/-! ## Single characters -/

namespace Scanner

/-- The characters that separate the parts of a text. -/
def signs : List Char := [',', ':', '"', '[', ']', '\x7b', '\x7d']

/-- Whether a character separates the parts of a text. -/
def IsSign (c : Char) : Prop := c ∈ signs

instance (c : Char) : Decidable (IsSign c) := inferInstanceAs (Decidable (c ∈ _))

/-- What is found to hold of all signs holds of each. -/
theorem IsSign.of_all {c : Char} (h : IsSign c) {p : Char → Bool} (hp : signs.all p = true) :
    p c = true := List.all_eq_true.mp hp c h

theorem IsSign.ascii {c : Char} (h : IsSign c) : c.toNat < 128 :=
  of_decide_eq_true (h.of_all (p := fun c => decide (c.toNat < 128)) (by decide))

/-- No blank is taken away before something else. -/
theorem skipBlanks_cons {b : UInt8} (h : isBlankByte b = false) (rest : List UInt8) :
    skipBlanks (b :: rest) = b :: rest := by
  rw [skipBlanks, List.dropWhile_cons_of_neg (by rw [h]; decide)]

theorem isBlankByte_of_isSign {c : Char} (h : IsSign c) :
    isBlankByte (UInt8.ofNat c.toNat) = false :=
  of_decide_eq_true
    (h.of_all (p := fun c => decide (isBlankByte (UInt8.ofNat c.toNat) = false)) (by decide))

theorem endsNumber_of_isSign {c : Char} (h : IsSign c) (cs : List Char) (rest : List UInt8) :
    EndsNumber (bytesOf (c :: cs) ++ rest) := by
  intro b hb
  rw [bytesOf_ascii h.ascii] at hb
  cases hb
  exact of_decide_eq_true (h.of_all
    (p := fun c => decide (isDigitByte (UInt8.ofNat c.toNat) = false ∧
      asChar (UInt8.ofNat c.toNat) ≠ '.' ∧ asChar (UInt8.ofNat c.toNat) ≠ 'e' ∧
      asChar (UInt8.ofNat c.toNat) ≠ 'E')) (by decide))

end Scanner

/-! ## The bytes of a text -/

/-- The bytes of the text of a value. -/
def bytes (v : Json) : List UInt8 := bytesOf v.text.toList

/-- The bytes of some elements with commas between them. -/
def itemsBytes (items : List Json) : List UInt8 := bytesOf (itemsText items).toList

/-- The bytes of some members with commas between them. -/
def membersBytes (members : List (String × Json)) : List UInt8 :=
  bytesOf (membersText members).toList

theorem bytes_number (n : Number) : bytes (.number n) = bytesOf n.text.toList := rfl

theorem quoted_bytes (s : String) :
    bytesOf (quoted s).toList = bytesOf ['"'] ++ stringBytes s := by
  rw [stringBytes, ← bytesOf_append, ← bytesOf_append]
  simp [quoted, quotedChars, escapedChars]

theorem bytes_string (s : String) : bytes (.string s) = bytesOf ['"'] ++ stringBytes s :=
  quoted_bytes s

theorem bytes_array (items : List Json) :
    bytes (.array items) = bytesOf ['['] ++ (itemsBytes items ++ bytesOf [']']) := by
  rw [bytes, text, itemsBytes, ← bytesOf_append, ← bytesOf_append]
  simp

theorem bytes_object (members : List (String × Json)) :
    bytes (.object members) = bytesOf ['\x7b'] ++ (membersBytes members ++ bytesOf ['\x7d']) := by
  rw [bytes, text, membersBytes, ← bytesOf_append, ← bytesOf_append]
  simp

/-- An array is read from its opening bracket on. -/
theorem bytes_array_append (items : List Json) (rest : List UInt8) :
    bytes (.array items) ++ rest =
      UInt8.ofNat '['.toNat :: (itemsBytes items ++ (bytesOf [']'] ++ rest)) := by
  rw [bytes_array, bytesOf_ascii (by decide)]
  simp only [List.cons_append, bytesOf_nil, List.nil_append, List.append_assoc]

theorem length_bytes_array (items : List Json) :
    (bytes (.array items)).length = (itemsBytes items).length + 2 := by
  rw [bytes_array, bytesOf_ascii (by decide), bytesOf_ascii (by decide)]
  simp only [bytesOf_nil, List.length_append, List.length_cons, List.length_nil]
  omega

/-- An object is read from its opening brace on. -/
theorem bytes_object_append (members : List (String × Json)) (rest : List UInt8) :
    bytes (.object members) ++ rest =
      UInt8.ofNat '\x7b'.toNat :: (membersBytes members ++ (bytesOf ['\x7d'] ++ rest)) := by
  rw [bytes_object, bytesOf_ascii (by decide)]
  simp only [List.cons_append, bytesOf_nil, List.nil_append, List.append_assoc]

theorem length_bytes_object (members : List (String × Json)) :
    (bytes (.object members)).length = (membersBytes members).length + 2 := by
  rw [bytes_object, bytesOf_ascii (by decide), bytesOf_ascii (by decide)]
  simp only [bytesOf_nil, List.length_append, List.length_cons, List.length_nil]
  omega

theorem itemsBytes_cons (v w : Json) (rest : List Json) :
    itemsBytes (v :: w :: rest) = bytes v ++ (bytesOf [','] ++ itemsBytes (w :: rest)) := by
  rw [itemsBytes, itemsText, bytes, itemsBytes, ← bytesOf_append, ← bytesOf_append]
  simp

/-- The bytes of a member. -/
def memberBytes (m : String × Json) : List UInt8 :=
  bytesOf ['"'] ++ (stringBytes m.1 ++ (bytesOf [':'] ++ bytes m.2))

theorem membersBytes_singleton (m : String × Json) : membersBytes [m] = memberBytes m := by
  obtain ⟨name, v⟩ := m
  rw [memberBytes, ← List.append_assoc, ← quoted_bytes, membersBytes, membersText, bytes,
    ← bytesOf_append, ← bytesOf_append]
  simp

theorem membersBytes_cons (m n : String × Json) (rest : List (String × Json)) :
    membersBytes (m :: n :: rest) = memberBytes m ++ (bytesOf [','] ++ membersBytes (n :: rest)) := by
  obtain ⟨name, v⟩ := m
  rw [memberBytes, ← List.append_assoc (bytesOf ['"']), ← quoted_bytes, membersBytes, membersText,
    bytes, membersBytes, ← bytesOf_append, ← bytesOf_append, ← bytesOf_append, ← bytesOf_append]
  simp

/-! ## The first byte -/

/-- The text of a number is that of a well-formed numeral. -/
theorem exists_numeral {n : Number} (h : Writable (.number n)) :
    (Numeral.ofNumber n).WellFormed ∧ (Numeral.ofNumber n).text = n.text := by
  cases h with
  | int n h => exact ⟨Numeral.wellFormed_ofInt n, Numeral.text_ofInt n⟩
  | float x h => exact ⟨Numeral.wellFormed_ofFloat h, Numeral.text_ofFloat h⟩

/-- Whether a byte may start a value. -/
def StartsValue (b : UInt8) : Prop := isBlankByte b = false ∧ asChar b ≠ ']' ∧ asChar b ≠ '\x7d'

/-- The byte of a digit is not one of those that are asked for before digits. -/
theorem startsValue_of_isDigit {c : Char} (h : c.isDigit = true) :
    StartsValue (UInt8.ofNat c.toNat) := by
  have hc := asChar_ascii (toNat_lt_of_isDigit h)
  obtain ⟨hlow, hhigh⟩ := Char.isDigit_iff_toNat.mp h
  have hbyte := toNat_byte (show c.toNat < 256 from
    Nat.lt_of_lt_of_le (toNat_lt_of_isDigit h) (by decide))
  refine ⟨?_, ?_, ?_⟩
  · simp only [isBlankByte, Bool.or_eq_false_iff, beq_eq_false_iff_ne, ne_eq, ← UInt8.toNat_inj,
      hbyte, UInt8.reduceToNat]
    have hzero : '0'.toNat = 48 := rfl
    omega
  · rw [hc]
    rintro rfl
    cases h
  · rw [hc]
    rintro rfl
    cases h

/-- A numeral without its sign starts with a digit. -/
theorem Numeral.WellFormed.unsigned_eq_cons {n : Numeral} (h : n.WellFormed) :
    ∃ c cs, n.unsigned = c :: cs ∧ c.isDigit = true := by
  obtain ⟨c, cs, hcs⟩ := List.exists_cons_of_ne_nil h.whole_ne_nil
  have hc : c.isDigit = true := h.whole c (hcs ▸ List.mem_cons_self)
  rw [unsigned, hcs]
  exact ⟨c, _, rfl, hc⟩

/-- The text of a value starts with neither a blank nor a closing sign. -/
theorem bytes_eq_cons {v : Json} (h : v.Writable) :
    ∃ b bs, bytes v = b :: bs ∧ StartsValue b := by
  have hsign : ∀ c : Char, c.toNat < 128 → StartsValue (UInt8.ofNat c.toNat) → ∀ cs,
      ∃ b bs, bytesOf [c] ++ cs = b :: bs ∧ StartsValue b := by
    intro c hc hstart cs
    rw [bytesOf_ascii hc]
    exact ⟨_, _, rfl, hstart⟩
  cases v with
  | null => exact ⟨_, _, rfl, by decide, by decide, by decide⟩
  | bool b => cases b <;> exact ⟨_, _, rfl, by decide, by decide, by decide⟩
  | number n =>
    obtain ⟨hform, htext⟩ := exists_numeral h
    obtain ⟨c, cs, hcs, hc⟩ := hform.unsigned_eq_cons
    rw [bytes_number, ← htext, Numeral.text, String.toList_ofList, Numeral.chars_eq, hcs,
      bytesOf_append]
    cases (Numeral.ofNumber n).negative with
    | true => exact hsign '-' (by decide) ⟨by decide, by decide, by decide⟩ _
    | false =>
      rw [if_neg (by decide), bytesOf_nil, List.nil_append, bytesOf_ascii (toNat_lt_of_isDigit hc)]
      exact ⟨_, _, rfl, startsValue_of_isDigit hc⟩
  | string s =>
    rw [bytes_string]
    exact hsign '"' (by decide) ⟨by decide, by decide, by decide⟩ _
  | array items =>
    rw [bytes_array]
    exact hsign '[' (by decide) ⟨by decide, by decide, by decide⟩ _
  | object members =>
    rw [bytes_object]
    exact hsign '\x7b' (by decide) ⟨by decide, by decide, by decide⟩ _

/-- So does the text of some elements. -/
theorem itemsBytes_eq_cons {v : Json} (h : v.Writable) (items : List Json) :
    ∃ b bs, itemsBytes (v :: items) = b :: bs ∧ StartsValue b := by
  obtain ⟨b, bs, hv, hb⟩ := bytes_eq_cons h
  cases items with
  | nil => exact ⟨b, bs, hv, hb⟩
  | cons w items =>
    rw [itemsBytes_cons, hv]
    exact ⟨b, _, rfl, hb⟩

/-- The text of some members starts with a quotation mark. -/
theorem membersBytes_eq_mark (m : String × Json) (members : List (String × Json)) :
    ∃ bs, membersBytes (m :: members) = bytesOf ['"'] ++ bs := by
  cases members with
  | nil =>
    rw [membersBytes_singleton]
    exact ⟨_, rfl⟩
  | cons n members =>
    rw [membersBytes_cons, memberBytes, List.append_assoc]
    exact ⟨_, rfl⟩

end Json

end Quarry
