/-
# Bytes of texts

The bytes of a text are those of its characters one after another, and decode to the text.

* `bytesOf` — the bytes of some characters. `encode_eq` — those of a text.
* `bytesOf_ascii` — a character of ASCII is one byte; `le_of_mem_utf8EncodeChar` — the bytes of any
  other one lie above ASCII.
* `decode_bytesOf` — decoding what was encoded.
-/
import Mathlib.Data.List.Basic
import Quarry.Text.Utf8

namespace Quarry.Text.Utf8

/-! ## Bytes of characters -/

/-- The bytes of some characters. -/
def bytesOf (cs : List Char) : List UInt8 := cs.flatMap String.utf8EncodeChar

@[simp] theorem bytesOf_nil : bytesOf [] = [] := rfl

theorem bytesOf_cons (c : Char) (cs : List Char) :
    bytesOf (c :: cs) = String.utf8EncodeChar c ++ bytesOf cs := rfl

@[simp] theorem bytesOf_append (cs ds : List Char) :
    bytesOf (cs ++ ds) = bytesOf cs ++ bytesOf ds := List.flatMap_append

/-- The list of a byte array is made from its last byte on. -/
theorem toList_loop (bs : ByteArray) (i : Nat) (done : List UInt8) :
    ByteArray.toList.loop bs i done = done.reverse ++ bs.data.toList.drop i := by
  rw [ByteArray.toList.loop.eq_def]
  split
  · next h =>
    have hi : i < bs.data.toList.length := h
    have hget : bs.get! i = bs.data.toList[i] := by
      cases bs
      exact getElem!_pos _ i h
    rw [toList_loop bs (i + 1), List.drop_eq_getElem_cons hi, List.reverse_cons, hget,
      List.append_assoc, List.singleton_append]
  · next h =>
    have hi : bs.data.toList.length ≤ i := Nat.le_of_not_lt h
    rw [List.drop_of_length_le hi, List.append_nil]
termination_by bs.size - i

/-- The bytes of a text are those of its characters. -/
theorem encode_eq (s : String) : encode s = bytesOf s.toList := by
  have hbytes : s.toByteArray = s.toList.utf8Encode := by
    rw [← String.toByteArray_ofList, String.ofList_toList]
  show s.toByteArray.toList = _
  rw [ByteArray.toList, toList_loop, hbytes, List.drop_zero, List.reverse_nil, List.nil_append]
  exact List.toList_data_toByteArray

/-! ## Bytes and their sizes -/

theorem toNat_byte {n : Nat} (h : n < 256) : (UInt8.ofNat n).toNat = n :=
  UInt8.toNat_ofNat_of_lt' h

/-- A character of ASCII is one byte. -/
theorem utf8EncodeChar_ascii {c : Char} (h : c.toNat < 128) :
    String.utf8EncodeChar c = [UInt8.ofNat c.toNat] := by
  rw [String.utf8EncodeChar.eq_1]
  exact if_pos (Nat.le_of_lt_succ h)

theorem bytesOf_ascii {c : Char} (h : c.toNat < 128) (cs : List Char) :
    bytesOf (c :: cs) = UInt8.ofNat c.toNat :: bytesOf cs := by
  rw [bytesOf_cons, utf8EncodeChar_ascii h]
  rfl

/-- Bytes of ASCII compare like the characters that they encode. -/
theorem bytesOf_lt_iff {cs ds : List Char} (hcs : ∀ c ∈ cs, c.toNat < 128)
    (hds : ∀ c ∈ ds, c.toNat < 128) : bytesOf cs < bytesOf ds ↔ cs < ds := by
  induction cs generalizing ds with
  | nil =>
    cases ds with
    | nil => simp
    | cons d ds => simp [bytesOf_ascii (hds d List.mem_cons_self)]
  | cons c cs ih =>
    cases ds with
    | nil => simp [bytesOf_ascii (hcs c List.mem_cons_self)]
    | cons d ds =>
      obtain ⟨hc, hcs⟩ := List.forall_mem_cons.mp hcs
      obtain ⟨hd, hds⟩ := List.forall_mem_cons.mp hds
      have hlt : UInt8.ofNat c.toNat < UInt8.ofNat d.toNat ↔ c < d := by
        rw [UInt8.lt_iff_toNat_lt, toNat_byte (by omega), toNat_byte (by omega)]
        rfl
      have heq : UInt8.ofNat c.toNat = UInt8.ofNat d.toNat ↔ c = d := by
        rw [← UInt8.toNat_inj, toNat_byte (by omega), toNat_byte (by omega), Char.toNat_inj]
      rw [bytesOf_ascii hc, bytesOf_ascii hd, List.cons_lt_cons_iff, List.cons_lt_cons_iff, hlt, heq,
        ih hcs hds]

/-- The bytes of a character beyond ASCII lie above ASCII. -/
theorem le_of_mem_utf8EncodeChar {c : Char} (h : ¬ c.toNat < 128) {b : UInt8}
    (hb : b ∈ String.utf8EncodeChar c) : 128 ≤ b.toNat := by
  have hv : ¬ c.val.toNat ≤ 127 := fun hle => h (Nat.lt_succ_of_le hle)
  rw [String.utf8EncodeChar.eq_1, if_neg hv] at hb
  split_ifs at hb
  all_goals
    simp only [List.mem_cons, List.not_mem_nil, or_false] at hb
    rcases hb with rfl | rfl | rfl | rfl
  all_goals
    rw [toNat_byte (by omega)]
    omega

/-! ## Decoding -/

/-- A byte of ASCII is a character. -/
theorem step_one {a : UInt8} (ha : a.toNat < 0x80) (rest : List UInt8) :
    step a rest = .char (Char.ofNat a.toNat) 1 rest := if_pos (UInt8.lt_iff_toNat_lt.mpr ha)

theorem isContinuation_iff {b : UInt8} :
    isContinuation b = true ↔ 0x80 ≤ b.toNat ∧ b.toNat ≤ 0xBF := by
  simp [isContinuation, UInt8.le_iff_toNat_le]

theorem secondOfThree_iff {a b : UInt8} : secondOfThree a b = true ↔
    0x80 ≤ b.toNat ∧ b.toNat ≤ 0xBF ∧ (a.toNat = 0xE0 → 0xA0 ≤ b.toNat) ∧
      (a.toNat = 0xED → b.toNat ≤ 0x9F) := by
  simp only [secondOfThree, beq_iff_eq, ← UInt8.toNat_inj, UInt8.reduceToNat]
  split_ifs <;> simp [isContinuation, UInt8.le_iff_toNat_le] <;> omega

theorem secondOfFour_iff {a b : UInt8} : secondOfFour a b = true ↔
    0x80 ≤ b.toNat ∧ b.toNat ≤ 0xBF ∧ (a.toNat = 0xF0 → 0x90 ≤ b.toNat) ∧
      (a.toNat = 0xF4 → b.toNat ≤ 0x8F) := by
  simp only [secondOfFour, beq_iff_eq, ← UInt8.toNat_inj, UInt8.reduceToNat]
  split_ifs <;> simp [isContinuation, UInt8.le_iff_toNat_le] <;> omega

/-- A first byte says how many bytes follow it. -/
theorem step_two {a b : UInt8} (ha : 0xC2 ≤ a.toNat ∧ a.toNat ≤ 0xDF)
    (hb : isContinuation b = true) (rest : List UInt8) :
    step a (b :: rest) = .char (Char.ofNat (a.toNat % 32 * 64 + payload b)) 2 rest := by
  unfold step
  simp only [UInt8.lt_iff_toNat_lt, UInt8.le_iff_toNat_le, UInt8.reduceToNat, Bool.and_eq_true,
    decide_eq_true_eq]
  rw [if_neg (by omega), if_pos ha, if_pos hb]

theorem step_three {a b c : UInt8} (ha : 0xE0 ≤ a.toNat ∧ a.toNat ≤ 0xEF)
    (hb : secondOfThree a b = true) (hc : isContinuation c = true) (rest : List UInt8) :
    step a (b :: c :: rest) =
      .char (Char.ofNat (a.toNat % 16 * 4096 + payload b * 64 + payload c)) 3 rest := by
  unfold step
  simp only [UInt8.lt_iff_toNat_lt, UInt8.le_iff_toNat_le, UInt8.reduceToNat, Bool.and_eq_true,
    decide_eq_true_eq]
  rw [if_neg (by omega), if_neg (by omega), if_pos ha, if_pos hb, if_pos hc]

theorem step_four {a b c d : UInt8} (ha : 0xF0 ≤ a.toNat ∧ a.toNat ≤ 0xF4)
    (hb : secondOfFour a b = true) (hc : isContinuation c = true) (hd : isContinuation d = true)
    (rest : List UInt8) :
    step a (b :: c :: d :: rest) =
      .char (Char.ofNat
        (a.toNat % 8 * 262144 + payload b * 4096 + payload c * 64 + payload d)) 4 rest := by
  unfold step
  simp only [UInt8.lt_iff_toNat_lt, UInt8.le_iff_toNat_le, UInt8.reduceToNat, Bool.and_eq_true,
    decide_eq_true_eq]
  rw [if_neg (by omega), if_neg (by omega), if_neg (by omega), if_pos ha, if_pos hb, if_pos hc,
    if_pos hd]

/-- The bytes of a character are read as the character. -/
theorem step_utf8EncodeChar (c : Char) (rest : List UInt8) :
    ∃ b bs, String.utf8EncodeChar c = b :: bs ∧
      step b (bs ++ rest) = .char c (String.utf8EncodeChar c).length rest := by
  have hchar : Char.ofNat c.val.toNat = c := Char.ofNat_toNat c
  have hvalid : c.val.toNat < 0xD800 ∨ 0xDFFF < c.val.toNat ∧ c.val.toNat < 0x110000 := c.valid
  rw [String.utf8EncodeChar.eq_1]
  generalize c.val.toNat = v at hchar hvalid
  split_ifs with h1 h2 h3
  · have ha := toNat_byte (show v < 256 by omega)
    refine ⟨_, [], rfl, ?_⟩
    rw [List.nil_append, step_one (by omega), ha, hchar]
    rfl
  · have ha := toNat_byte (show v / 64 % 32 + 192 < 256 by omega)
    have hb := toNat_byte (show v % 64 + 128 < 256 by omega)
    refine ⟨_, _, rfl, ?_⟩
    have hv : (v / 64 % 32 + 192) % 32 * 64 + (v % 64 + 128) % 64 = v := by omega
    rw [List.singleton_append, step_two (by omega) (isContinuation_iff.mpr (by omega)), payload, ha,
      hb, hv, hchar]
    rfl
  · have ha := toNat_byte (show v / 4096 % 16 + 224 < 256 by omega)
    have hb := toNat_byte (show v / 64 % 64 + 128 < 256 by omega)
    have hc := toNat_byte (show v % 64 + 128 < 256 by omega)
    refine ⟨_, _, rfl, ?_⟩
    have hv : (v / 4096 % 16 + 224) % 16 * 4096 + (v / 64 % 64 + 128) % 64 * 64 +
        (v % 64 + 128) % 64 = v := by omega
    rw [List.cons_append, List.singleton_append, step_three (by omega)
      (secondOfThree_iff.mpr (by omega)) (isContinuation_iff.mpr (by omega)), payload, payload, ha,
      hb, hc, hv, hchar]
    rfl
  · have ha := toNat_byte (show v / 262144 % 8 + 240 < 256 by omega)
    have hb := toNat_byte (show v / 4096 % 64 + 128 < 256 by omega)
    have hc := toNat_byte (show v / 64 % 64 + 128 < 256 by omega)
    have hd := toNat_byte (show v % 64 + 128 < 256 by omega)
    refine ⟨_, _, rfl, ?_⟩
    have hv : (v / 262144 % 8 + 240) % 8 * 262144 + (v / 4096 % 64 + 128) % 64 * 4096 +
        (v / 64 % 64 + 128) % 64 * 64 + (v % 64 + 128) % 64 = v := by omega
    rw [List.cons_append, List.cons_append, List.singleton_append, step_four (by omega)
      (secondOfFour_iff.mpr (by omega)) (isContinuation_iff.mpr (by omega))
      (isContinuation_iff.mpr (by omega)), payload, payload, payload, ha, hb, hc, hd, hv, hchar]
    rfl

/-- What was encoded is decoded, after characters already read. -/
theorem decodeFrom_bytesOf (cs : List Char) {fuel : Nat} (hfuel : (bytesOf cs).length ≤ fuel)
    (read : List Char) (index : Nat) :
    decodeFrom fuel read index (bytesOf cs) = .ok (read.reverse ++ cs) := by
  induction cs generalizing fuel read index with
  | nil => cases fuel <;> simp [decodeFrom]
  | cons c cs ih =>
    obtain ⟨b, bs, hbytes, hstep⟩ := step_utf8EncodeChar c (bytesOf cs)
    rw [bytesOf_cons, hbytes, List.cons_append] at hfuel ⊢
    rw [List.length_cons, List.length_append] at hfuel
    obtain ⟨fuel, rfl⟩ := Nat.exists_eq_succ_of_ne_zero (show fuel ≠ 0 by omega)
    rw [decodeFrom, hstep]
    simp only
    rw [ih (by omega), List.reverse_cons, List.append_assoc, List.singleton_append]

/-- What was encoded is decoded. -/
@[simp] theorem decode_bytesOf (cs : List Char) : decode (bytesOf cs) = .ok (String.ofList cs) := by
  rw [decode, decodeFrom_bytesOf cs (Nat.le_refl _)]
  rfl

/-- Texts with the same bytes are the same. -/
theorem encode_inj {s t : String} : encode s = encode t ↔ s = t := by
  constructor
  · intro h
    rw [encode_eq, encode_eq] at h
    have hread := decode_bytesOf s.toList
    rw [h, decode_bytesOf, String.ofList_toList, String.ofList_toList] at hread
    exact (Except.ok.inj hread).symm
  · rintro rfl
    rfl

end Quarry.Text.Utf8
