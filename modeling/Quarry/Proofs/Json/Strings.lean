/-
# Strings in JSON text

A string in quotation marks is passed over to its closing mark, and read as the string.

* `escapeChar_cases` — the three ways in which a character stands inside a string.
* `skipString_escaped`, `readWritten_escaped`, `readString_escaped` — what is found after an opening
  mark.
* `plainCodes_written`, `plainChars_written` — what stands between the marks is the string.
-/
import Quarry.Json.Printer
import Quarry.Json.Verbatim
import Quarry.Proofs.Text.Utf8

namespace Quarry.Json

open Quarry.Text Quarry.Text.Utf8

/-! ## Bytes as characters -/

namespace Scanner

@[simp] theorem toNat_asChar (b : UInt8) : (asChar b).toNat = b.toNat := by
  have hlt : b.toNat < 256 := b.toNat_lt
  have hvalid : b.toNat.isValidChar := .inl (by omega)
  rw [asChar, Char.ofNat, dif_pos hvalid]
  rfl

/-- A byte stands for the character of its code. -/
theorem asChar_eq_iff {b : UInt8} {c : Char} : asChar b = c ↔ b.toNat = c.toNat := by
  rw [← Char.toNat_inj, toNat_asChar]

/-- The byte of a character of ASCII stands for the character. -/
theorem asChar_ascii {c : Char} (h : c.toNat < 128) : asChar (UInt8.ofNat c.toNat) = c := by
  rw [asChar_eq_iff, toNat_byte (by omega)]

end Scanner

/-! ## Characters inside strings -/

/-- The hexadecimal digits of a small number, filled up to four. -/
theorem hexChars_small : ∀ n < 32,
    List.replicate (4 - (Digits.hexChars n).length) '0' ++ Digits.hexChars n =
      ['0', '0', (n / 16).digitChar, (n % 16).digitChar] := by
  decide +kernel

theorem hexDigit?_digitChar : ∀ n < 16, Digits.hexDigit? n.digitChar = some n := by
  decide +kernel

/-- A character stands inside a string behind a backslash as a letter, or behind one as its code, or
as itself. -/
inductive Escaped (c : Char) : List Char → Prop where
  | letter (x : Char) (code : UInt8) (h : Scanner.simpleEscape? x = some code)
    (hcode : code.toNat = c.toNat) (hc : c.toNat < 128) (hx : x.toNat < 128) (hu : x ≠ 'u')
    (hplain : Verbatim.escapedChar x = c) : Escaped c ['\\', x]
  | code (h : c.toNat < 32) : Escaped c
      ['\\', 'u', '0', '0', (c.toNat / 16).digitChar, (c.toNat % 16).digitChar]
  | itself (hmark : c ≠ '"') (hslash : c ≠ '\\') (h : 32 ≤ c.toNat) : Escaped c [c]

theorem escaped_escapeChar (c : Char) : Escaped c (escapeChar c) := by
  unfold escapeChar
  split_ifs with h1 h2 h3 h4 h5 h6 h7 h8
  · subst h1
    exact .letter '"' 0x22 rfl rfl (by decide) (by decide) (by decide) rfl
  · subst h2
    exact .letter '\\' 0x5C rfl rfl (by decide) (by decide) (by decide) rfl
  · subst h3
    exact .letter 'n' 0x0A rfl rfl (by decide) (by decide) (by decide) rfl
  · subst h4
    exact .letter 'r' 0x0D rfl rfl (by decide) (by decide) (by decide) rfl
  · subst h5
    exact .letter 't' 0x09 rfl rfl (by decide) (by decide) (by decide) rfl
  · subst h6
    exact .letter 'b' 0x08 rfl rfl (by decide) (by decide) (by decide) rfl
  · subst h7
    exact .letter 'f' 0x0C rfl rfl (by decide) (by decide) (by decide) rfl
  · simp only [List.cons_append, hexChars_small _ h8]
    exact .code h8
  · exact .itself h1 h2 (by omega)

/-- The characters of a string as they stand between its marks. -/
def escapedChars (cs : List Char) : List Char := cs.flatMap escapeChar

@[simp] theorem escapedChars_cons (c : Char) (cs : List Char) :
    escapedChars (c :: cs) = escapeChar c ++ escapedChars cs := rfl

/-! ## Passing over a string -/

namespace Scanner

/-- The four digits of a small code. -/
theorem hexFour_small {n : Nat} (h : n < 32) (rest : List UInt8) :
    hexFour (bytesOf ['0', '0', (n / 16).digitChar, (n % 16).digitChar] ++ rest) =
      .ok (n, rest) := by
  have hhigh := hexDigit?_digitChar (n / 16) (by omega)
  have hlow := hexDigit?_digitChar (n % 16) (by omega)
  have hascii : ∀ d < 16, d.digitChar.toNat < 128 := by decide
  have hzero : Digits.hexDigit? '0' = some 0 := rfl
  have hsum : ((0 * 16 + 0) * 16 + n / 16) * 16 + n % 16 = n := by omega
  rw [bytesOf_ascii (by decide), bytesOf_ascii (by decide), bytesOf_ascii (hascii _ (by omega)),
    bytesOf_ascii (hascii _ (by omega)), bytesOf_nil]
  simp only [List.cons_append, List.nil_append, hexFour,
    asChar_ascii (hascii _ (show n / 16 < 16 by omega)),
    asChar_ascii (hascii _ (show n % 16 < 16 by omega)),
    asChar_ascii (show '0'.toNat < 128 by decide), hhigh, hlow, hzero, hsum]

/-- What follows a backslash is passed over, and stands for the character. -/
theorem escape_letter {x c : Char} {code : UInt8} (h : simpleEscape? x = some code)
    (hcode : code.toNat = c.toNat) (hc : c.toNat < 128) (hx : x.toNat < 128) (rest : List UInt8) :
    skipEscape (bytesOf [x] ++ rest) = .ok rest ∧
      readEscape (bytesOf [x] ++ rest) = .ok (bytesOf [c], rest) := by
  have hbyte : [code] = bytesOf [c] := by
    rw [bytesOf_ascii hc, bytesOf_nil, ← hcode, UInt8.ofNat_toNat]
  rw [bytesOf_ascii hx, bytesOf_nil, List.singleton_append, ← hbyte]
  constructor
  · simp only [skipEscape, asChar_ascii hx, h]
  · simp only [readEscape, asChar_ascii hx, h]

theorem escape_code {c : Char} (h : c.toNat < 32) (rest : List UInt8) :
    skipEscape (bytesOf ['u', '0', '0', (c.toNat / 16).digitChar, (c.toNat % 16).digitChar] ++ rest) =
        .ok rest ∧
      readEscape (bytesOf ['u', '0', '0', (c.toNat / 16).digitChar, (c.toNat % 16).digitChar] ++
        rest) = .ok (bytesOf [c], rest) := by
  have hchar : asChar (UInt8.ofNat 'u'.toNat) = 'u' := asChar_ascii (by decide)
  have hsimple : simpleEscape? 'u' = none := rfl
  have hbytes : charBytes c.toNat = bytesOf [c] := by
    rw [charBytes, Char.ofNat_toNat, encode_eq, String.toList_singleton]
  have htrailing : isTrailing c.toNat = false := by
    simp [isTrailing]
    omega
  have hleading : isLeading c.toNat = false := by
    simp [isLeading]
    omega
  rw [bytesOf_ascii (by decide), List.cons_append]
  constructor
  · simp only [skipEscape, hchar, hsimple, ↓reduceIte, hexFour_small h]
    rfl
  · simp only [readEscape, hchar, hsimple, ↓reduceIte, readCode, hexFour_small h]
    show (if isTrailing c.toNat then _ else _ : Except Malformed _) = _
    rw [htrailing, ← hbytes]
    simp [hleading]
    rfl

/-- A byte that is neither mark nor backslash nor control character stands for itself. -/
def IsPlainByte (b : UInt8) : Prop := b.toNat ≠ 34 ∧ b.toNat ≠ 92 ∧ 32 ≤ b.toNat

/-- The bytes of a character that stands as itself. -/
theorem isPlainByte {c : Char} (hmark : c ≠ '"') (hslash : c ≠ '\\') (h : 32 ≤ c.toNat) :
    ∀ b ∈ bytesOf [c], IsPlainByte b := by
  intro b hb
  rw [bytesOf_cons, bytesOf_nil, List.append_nil] at hb
  by_cases hc : c.toNat < 128
  · rw [utf8EncodeChar_ascii hc, List.mem_singleton] at hb
    subst hb
    rw [IsPlainByte, toNat_byte (by omega)]
    exact ⟨fun heq => hmark (Char.toNat_inj.mp heq), fun heq => hslash (Char.toNat_inj.mp heq), h⟩
  · have hle := le_of_mem_utf8EncodeChar hc hb
    unfold IsPlainByte
    omega

/-- The tests that a plain byte goes through. -/
theorem IsPlainByte.tests {b : UInt8} (h : IsPlainByte b) :
    asChar b ≠ '"' ∧ asChar b ≠ '\\' ∧ ¬ b < 0x20 := by
  refine ⟨fun heq => h.1 (asChar_eq_iff.mp heq), fun heq => h.2.1 (asChar_eq_iff.mp heq), ?_⟩
  rw [UInt8.lt_iff_toNat_lt]
  exact Nat.not_lt.mpr h.2.2

theorem skipStringFrom_bytes {bs : List UInt8} (h : ∀ b ∈ bs, IsPlainByte b) (fuel : Nat)
    (rest : List UInt8) :
    skipStringFrom (fuel + bs.length) (bs ++ rest) = skipStringFrom fuel rest := by
  induction bs with
  | nil => rfl
  | cons b bs ih =>
    obtain ⟨hm, hs, hc⟩ := (h b List.mem_cons_self).tests
    rw [List.length_cons, ← Nat.add_assoc, List.cons_append, skipStringFrom, if_neg hm, if_neg hs,
      if_neg hc, ih fun b hb => h b (List.mem_cons_of_mem _ hb)]

theorem readStringFrom_bytes {bs : List UInt8} (h : ∀ b ∈ bs, IsPlainByte b) (fuel : Nat)
    (read rest : List UInt8) :
    readStringFrom (fuel + bs.length) read (bs ++ rest) =
      readStringFrom fuel (bs.reverse ++ read) rest := by
  induction bs generalizing read with
  | nil => rfl
  | cons b bs ih =>
    obtain ⟨hm, hs, hc⟩ := (h b List.mem_cons_self).tests
    rw [List.length_cons, ← Nat.add_assoc, List.cons_append, readStringFrom, if_neg hm, if_neg hs,
      if_neg hc, ih fun b hb => h b (List.mem_cons_of_mem _ hb), List.reverse_cons,
      List.append_assoc, List.singleton_append]

/-- A character of a string is passed over, and read, in at most as many steps as it has bytes. -/
theorem stringFrom_escapeChar (c : Char) :
    ∃ steps ≤ (bytesOf (escapeChar c)).length, ∀ fuel rest,
      skipStringFrom (fuel + steps) (bytesOf (escapeChar c) ++ rest) = skipStringFrom fuel rest ∧
      ∀ read, readStringFrom (fuel + steps) read (bytesOf (escapeChar c) ++ rest) =
        readStringFrom fuel ((bytesOf [c]).reverse ++ read) rest := by
  -- A backslash is one step, with all that belongs to it.
  have hescape : ∀ cs : List Char, (∀ rest, skipEscape (bytesOf cs ++ rest) = .ok rest ∧
      readEscape (bytesOf cs ++ rest) = .ok (bytesOf [c], rest)) →
      1 ≤ (bytesOf ('\\' :: cs)).length ∧ ∀ fuel rest,
        skipStringFrom (fuel + 1) (bytesOf ('\\' :: cs) ++ rest) = skipStringFrom fuel rest ∧
        ∀ read, readStringFrom (fuel + 1) read (bytesOf ('\\' :: cs) ++ rest) =
          readStringFrom fuel ((bytesOf [c]).reverse ++ read) rest := by
    intro cs hcs
    have hchar : asChar (UInt8.ofNat '\\'.toNat) = '\\' := asChar_ascii (by decide)
    rw [bytesOf_ascii (by decide)]
    refine ⟨Nat.succ_pos _, fun fuel rest => ⟨?_, fun read => ?_⟩⟩
    · rw [List.cons_append, skipStringFrom, hchar, if_neg (by decide), if_pos rfl, (hcs rest).1]
      rfl
    · rw [List.cons_append, readStringFrom, hchar, if_neg (by decide), if_pos rfl, (hcs rest).2]
      rfl
  have hescaped := escaped_escapeChar c
  generalize escapeChar c = cs at hescaped
  cases hescaped with
  | letter x code h hcode hc hx _ _ =>
    exact ⟨1, hescape [x] (escape_letter h hcode hc hx)⟩
  | code h => exact ⟨1, hescape _ (escape_code h)⟩
  | itself hmark hslash h =>
    have hplain := isPlainByte hmark hslash h
    exact ⟨_, Nat.le_refl _, fun fuel rest =>
      ⟨skipStringFrom_bytes hplain fuel rest, fun read =>
        readStringFrom_bytes hplain fuel read rest⟩⟩

/-- A string is passed over up to its closing mark, and read. -/
theorem stringFrom_escapedChars (cs : List Char) {fuel : Nat}
    (hfuel : (bytesOf (escapedChars cs)).length < fuel) (rest : List UInt8) :
    skipStringFrom fuel (bytesOf (escapedChars cs) ++ (bytesOf ['"'] ++ rest)) = .ok rest ∧
    ∀ read, readStringFrom fuel read (bytesOf (escapedChars cs) ++ (bytesOf ['"'] ++ rest)) =
      .ok (read.reverse ++ bytesOf cs, rest) := by
  induction cs generalizing fuel with
  | nil =>
    obtain ⟨fuel, rfl⟩ := Nat.exists_eq_succ_of_ne_zero (show fuel ≠ 0 by omega)
    have hchar : asChar (UInt8.ofNat '"'.toNat) = '"' := asChar_ascii (by decide)
    have hnil : bytesOf (escapedChars []) = [] := rfl
    rw [hnil, bytesOf_ascii (by decide), bytesOf_nil, List.nil_append, List.singleton_append]
    refine ⟨?_, fun read => ?_⟩
    · rw [skipStringFrom, hchar, if_pos rfl]
    · rw [readStringFrom, hchar, if_pos rfl, List.append_nil]
  | cons c cs ih =>
    obtain ⟨steps, hsteps, hstep⟩ := stringFrom_escapeChar c
    rw [escapedChars_cons, bytesOf_append, List.length_append] at hfuel
    obtain ⟨fuel, rfl⟩ := Nat.exists_eq_add_of_le' (show steps ≤ fuel by omega)
    obtain ⟨hskip, hread⟩ := ih (show (bytesOf (escapedChars cs)).length < fuel by omega)
    rw [escapedChars_cons, bytesOf_append, List.append_assoc]
    obtain ⟨hskip1, hread1⟩ := hstep fuel (bytesOf (escapedChars cs) ++ (bytesOf ['"'] ++ rest))
    refine ⟨hskip1.trans hskip, fun read => ?_⟩
    rw [hread1, hread, List.reverse_append, List.reverse_reverse, List.append_assoc,
      ← bytesOf_append, List.singleton_append]

/-- What stands in a text from after an opening mark up to after the closing one. -/
def stringBytes (s : String) : List UInt8 := bytesOf (escapedChars s.toList) ++ bytesOf ['"']

theorem length_stringBytes (s : String) :
    (stringBytes s).length = (bytesOf (escapedChars s.toList)).length + 1 := by
  rw [stringBytes, List.length_append, bytesOf_ascii (by decide)]
  rfl

/-- A string is passed over after its opening mark. -/
theorem skipString_stringBytes (s : String) (rest : List UInt8) :
    skipString (stringBytes s ++ rest) = .ok rest := by
  have hlength := length_stringBytes s
  rw [skipString, stringBytes, List.append_assoc]
  refine (stringFrom_escapedChars s.toList ?_ rest).1
  rw [← List.append_assoc, ← stringBytes, List.length_append]
  omega

/-- A string is read after its opening mark. -/
theorem readString_stringBytes (s : String) (rest : List UInt8) :
    readString (stringBytes s ++ rest) = .ok (s, rest) := by
  have hlength := length_stringBytes s
  have hread : readStringFrom (stringBytes s ++ rest).length [] (stringBytes s ++ rest) =
      .ok (bytesOf s.toList, rest) := by
    rw [stringBytes, List.append_assoc]
    refine (stringFrom_escapedChars s.toList ?_ rest).2 []
    rw [← List.append_assoc, ← stringBytes, List.length_append]
    omega
  have hdecode : decode (bytesOf s.toList) = .ok s := by
    rw [decode_bytesOf, String.ofList_toList]
  rw [readString, hread]
  simp only [bind, Except.bind, hdecode]
  rfl

end Scanner

/-! ## Strings as written -/

namespace Verbatim

/-- What stands between the marks of a string. -/
def written (s : String) : String := String.ofList (escapedChars s.toList)

/-- A string is read as it is written. -/
theorem readWritten_stringBytes (s : String) (rest : List UInt8) :
    readWritten (Scanner.stringBytes s ++ rest) = some (written s, rest) := by
  have hlength := Scanner.length_stringBytes s
  have hsize : (Scanner.stringBytes s ++ rest).length - rest.length - 1 =
      (bytesOf (escapedChars s.toList)).length := by
    rw [List.length_append]
    omega
  have htake : (Scanner.stringBytes s ++ rest).take (bytesOf (escapedChars s.toList)).length =
      bytesOf (escapedChars s.toList) := by
    rw [Scanner.stringBytes, List.append_assoc]
    exact List.take_left
  rw [readWritten, Scanner.skipString_stringBytes]
  simp only
  rw [hsize, htake, decode_bytesOf]
  rfl

/-- The code of a character of a string is found again. -/
theorem codesFrom_escapeChar (c : Char) (rest : List Char) :
    codesFrom none (escapeChar c ++ rest) = c.toNat :: codesFrom none rest := by
  have hescaped := escaped_escapeChar c
  generalize escapeChar c = cs at hescaped
  cases hescaped with
  | letter x code h _ _ hx hu hplain =>
    rw [List.cons_append, List.singleton_append, codesFrom, hplain]
    · rfl
    · intro _ _ _ _ _ heq
      exact absurd heq hu
  | code h =>
    have hhigh := hexDigit?_digitChar (c.toNat / 16) (by omega)
    have hlow := hexDigit?_digitChar (c.toNat % 16) (by omega)
    have hzero : Digits.hexDigit? '0' = some 0 := rfl
    have hsum : ((0 * 16 + 0) * 16 + c.toNat / 16) * 16 + c.toNat % 16 = c.toNat := by omega
    have hfour : hexFour? '0' '0' (c.toNat / 16).digitChar (c.toNat % 16).digitChar =
        some c.toNat := by
      simp only [hexFour?, hhigh, hlow, hzero, Option.bind_eq_bind, Option.bind_some, hsum]
    have hhalf : ¬ (0xD800 ≤ c.toNat ∧ c.toNat ≤ 0xDBFF) := by omega
    simp only [List.cons_append, List.nil_append, codesFrom, hfour, Option.bind_none, hhalf,
      ↓reduceIte]
    rfl
  | itself hmark hslash h =>
    rw [List.singleton_append, codesFrom]
    · rfl
    · intro _ _ _ _ _ heq
      exact absurd heq hslash
    · intro _ _ heq
      exact absurd heq hslash

/-- What stands between the marks of a string are the codes of the string. -/
@[simp] theorem plainCodes_written (s : String) :
    plainCodes (written s) = s.toList.map Char.toNat := by
  rw [plainCodes, written, String.toList_ofList]
  induction s.toList with
  | nil => rfl
  | cons c cs ih => rw [escapedChars_cons, codesFrom_escapeChar, ih, List.map_cons]

/-- A character is no half of a pair. -/
theorem codeChars_toNat (c : Char) : codeChars c.toNat = [c] := by
  have hvalid : c.toNat.isValidChar := c.valid
  unfold Nat.isValidChar at hvalid
  rw [codeChars, if_neg (by omega), Char.ofNat_toNat]

/-- So are its characters. -/
@[simp] theorem plainChars_written (s : String) : plainChars (written s) = s.toList := by
  rw [plainChars, plainCodes_written, List.flatMap_map]
  simp only [codeChars_toNat, List.flatMap_singleton']

end Verbatim

end Quarry.Json
