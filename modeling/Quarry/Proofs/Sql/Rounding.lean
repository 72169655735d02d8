/-
# Floats that are read in statements

What is known of a float once its text is read again.

* `Decimal.whole?` — the integer that a decimal is. `int64Of?_plain` — the floats whose plain text
  is an integer.
* `balanced_keptDigits` — of an integer of sixty-four bits all digits are kept.
* `ofFloat_approximate` — one that is a normal number is read as such.
* `Binary64.Holds` — the integers that floats hold.
* `floatKey_approximate_iff` — of what was written, just these are read as the integer that they are.
-/
import Quarry.Proofs.Decimal.Exact
import Quarry.Proofs.Json.Numerals
import Quarry.Sql.Order
import Quarry.Sql.Rounding

namespace Quarry

open Quarry.Decimal Quarry.Json Quarry.Text

/-! ## Plain text -/

namespace Decimal

/-- The integer that a decimal is, if it is written as one. -/
def whole? (d : Decimal) : Option Nat :=
  match d.exponent with
  | .ofNat k => some (d.digits * 10 ^ k)
  | .negSucc _ => none

/-- The decimal that a number is written as. -/
def ofParts (m : Nat) (e : Int) : Decimal := if m = 0 then ⟨0, 0⟩ else shortest m e

theorem isTrimmed_ofParts (m : Nat) (e : Int) : (ofParts m e).IsTrimmed := by
  unfold ofParts
  split
  · exact .inr rfl
  · next hm => exact isTrimmed_shortest (Nat.pos_of_ne_zero hm) e

theorem natFrom?_positionalChars (d : Decimal) :
    Digits.natFrom? 0 (plain.positionalChars d) = d.whole? := by
  unfold Layout.positionalChars whole?
  cases d.exponent with
  | ofNat k =>
    show Digits.natFrom? 0 (d.chars ++ List.replicate k '0' ++ []) = _
    rw [List.append_nil]
    exact Digits.natFrom?_chars_append_zeros d.digits k
  | negSucc k =>
    simp only
    split_ifs
    · exact Digits.natFrom?_eq_none (c := '.') (by simp) rfl 0
    · exact Digits.natFrom?_eq_none (c := '.') (by simp) rfl 0

/-- The plain text of a decimal starts with a digit. -/
theorem positionalChars_eq_cons (d : Decimal) :
    ∃ c cs, plain.positionalChars d = c :: cs ∧ c.isDigit = true := by
  obtain ⟨c, cs, hcs, hc⟩ := Digits.chars_eq_cons d.digits
  have hchars : d.chars = c :: cs := hcs
  unfold Layout.positionalChars
  cases d.exponent with
  | ofNat k => exact ⟨c, cs ++ List.replicate k '0' ++ [], by simp [hchars, plain], hc⟩
  | negSucc k =>
    simp only
    split_ifs with hk
    · obtain ⟨n, hn⟩ : ∃ n, d.chars.length - (k + 1) = n + 1 :=
        ⟨d.chars.length - (k + 1) - 1, by omega⟩
      rw [hn]
      exact ⟨c, _, by rw [hchars, List.take_succ_cons, List.cons_append], hc⟩
    · exact ⟨'0', _, rfl, rfl⟩

theorem intOf?_positionalChars (negative : Bool) (d : Decimal) :
    Digits.intOf? (if negative then '-' :: plain.positionalChars d else plain.positionalChars d) =
      d.whole?.map (Binary64.signed negative) := by
  obtain ⟨c, cs, hcs, hc⟩ := positionalChars_eq_cons d
  have hnat : Digits.natOf? (c :: cs) = d.whole? := by
    rw [← natFrom?_positionalChars, hcs]
    rfl
  rw [hcs]
  cases negative with
  | true =>
    rw [if_pos rfl, Digits.intOf?, hnat]
    cases d.whole? <;> rfl
  | false =>
    rw [if_neg Bool.false_ne_true, Digits.intOf?_of_isDigit hc, hnat]
    rfl

theorem chars_plain (negative : Bool) (m : Nat) (e : Int) :
    plain.chars (.finite negative m e) =
      if negative then '-' :: plain.positionalChars (ofParts m e)
      else plain.positionalChars (ofParts m e) := by
  unfold Layout.chars ofParts
  by_cases hm : m = 0
  · simp only [if_pos hm]
    rfl
  · simp only [if_neg hm]
    rfl

/-- The plain text of a float is an integer if the decimal is one. -/
theorem int64Of?_plain {x : Float} {negative : Bool} {m : Nat} {e : Int}
    (hparts : Binary64.ofFloat x = .finite negative m e) :
    Digits.int64Of? (plain.render x) =
      ((ofParts m e).whole?.map (Binary64.signed negative)).filter Digits.fitsInt64 := by
  rw [Digits.int64Of?, Layout.render, String.toList_ofList, hparts, chars_plain,
    intOf?_positionalChars]

end Decimal

/-! ## Numerals -/

namespace Json.Numeral

open Float.Model.UnpackedFloat

theorem ofFloat_eq {x : Float} {negative : Bool} {m : Nat} {e : Int}
    (hparts : Binary64.ofFloat x = .finite negative m e) :
    ofFloat x = ofDecimal negative (Decimal.ofParts m e) := by
  unfold ofFloat Decimal.ofParts
  rw [hparts]
  by_cases hm : m = 0
  · simp only [if_pos hm]
    rfl
  · simp only [if_neg hm]

/-- A float is not written as an integer. -/
theorem isWhole_ofFloat {x : Float} (hx : (Binary64.ofFloat x).isFinite = true) :
    (ofFloat x).isWhole = false := by
  obtain ⟨negative, m, e, hparts⟩ := exists_parts_of_isFinite hx
  have hne : (Decimal.ofParts m e).chars ≠ [] := Digits.chars_ne_nil _
  rw [ofFloat_eq hparts]
  have hform := decimalForm negative (Decimal.ofParts m e)
  generalize ofDecimal negative (Decimal.ofParts m e) = n at hform
  generalize numberLayout.decimalChars (Decimal.ofParts m e) = cs at hform
  cases hform with
  | whole e he => rfl
  | pointed k hk h =>
    have hdrop : (Decimal.ofParts m e).chars.drop
        ((Decimal.ofParts m e).chars.length - (k + 1)) ≠ [] := by
      rw [Ne, List.drop_eq_nil_iff]
      omega
    simp [isWhole, hdrop]
  | small e he h => simp [isWhole, hne]
  | scientific sign hsign h => simp [isWhole]

end Json.Numeral

/-! ## Digits that are kept -/

namespace Sql

/-- Digits are all kept as long as there is room for the integer that they write. -/
theorem gatherDigits_eq {cs : List Char} {start n : Nat}
    (h : Digits.natFrom? start cs = some n) (hroom : n < 10 * digitRoom) :
    gatherDigits start cs = (n, 0) := by
  induction cs generalizing start with
  | nil =>
    cases h
    rfl
  | cons c cs ih =>
    rw [Digits.natFrom?, Option.bind_eq_some_iff] at h
    obtain ⟨d, hd, hrest⟩ := h
    have hle := Digits.le_of_natFrom? hrest
    rw [gatherDigits, if_pos (by omega), hd]
    exact ih hrest

/-- Two runs of digits are kept like one. -/
theorem gatherDigits_append {as bs : List Char} {n : Nat}
    (h : Digits.natFrom? 0 (as ++ bs) = some n) (hroom : n < 10 * digitRoom) :
    ∃ m, gatherDigits 0 as = (m, 0) ∧ gatherDigits m bs = (n, 0) := by
  rw [Digits.natFrom?_append, Option.bind_eq_some_iff] at h
  obtain ⟨m, has, hbs⟩ := h
  have hle := Digits.le_of_natFrom? hbs
  exact ⟨m, gatherDigits_eq has (by omega), gatherDigits_eq hbs hroom⟩

/-- An exponent of less than six digits is read as it is. -/
theorem exponentOf_eq {cs : List Char} {n : Nat} (h : Digits.natFrom? 0 cs = some n)
    (hn : n < 100000) : exponentOf cs = n := by
  suffices hfrom : ∀ start, Digits.natFrom? start cs = some n → cs.foldl (fun e c =>
      if e < 10000 then e * 10 + (Digits.digit? c).getD 0 else 10000) start = n from hfrom 0 h
  clear h
  induction cs with
  | nil => exact fun start h => Option.some.inj h
  | cons c cs ih =>
    intro start h
    rw [Digits.natFrom?, Option.bind_eq_some_iff] at h
    obtain ⟨d, hd, hrest⟩ := h
    have hle := Digits.le_of_natFrom? hrest
    rw [List.foldl_cons, if_pos (by omega), hd]
    exact ih _ hrest

/-- Zeros are all appended as long as there is room for them. -/
theorem appendZeros_eq {e n : Nat} (h : n * 10 ^ e < 10 * zeroRoom) :
    appendZeros e n = ⟨n * 10 ^ e, 0⟩ := by
  induction e generalizing n with
  | zero => rw [appendZeros, Nat.pow_zero, Nat.mul_one]
  | succ e ih =>
    rw [Nat.pow_succ', ← Nat.mul_assoc] at h ⊢
    have hle : n * 10 ≤ n * 10 * 10 ^ e := Nat.le_mul_of_pos_right _ (by positivity)
    rw [appendZeros, if_pos (by omega), ih h]

/-- The digits kept of an integer with a fraction of one zero. -/
theorem balanced_keptDigits_whole (negative : Bool) {cs : List Char} {n : Nat}
    (h : Digits.natFrom? 0 cs = some n) (hroom : n < 10 * digitRoom) :
    balanced (keptDigits ⟨negative, cs, ['0'], [], []⟩) = ⟨n, 0⟩ := by
  have hzero : (Digits.digit? '0').getD 0 = 0 := rfl
  unfold keptDigits
  simp only [gatherDigits_eq h hroom, gatherDigits, hzero]
  by_cases hn : n < digitRoom
  · rw [if_pos hn]
    show dropZeros 1 (n * 10) = _
    rw [dropZeros, if_pos (Nat.mul_mod_left n 10), Nat.mul_div_cancel n (by decide)]
    rfl
  · rw [if_neg hn]
    rfl

/-- Of an integer that has room all digits are kept, however it is written. -/
theorem balanced_keptDigits (negative : Bool) {d : Decimal} (hd : d.IsTrimmed) {k : Nat}
    (hk : d.exponent = .ofNat k) (hroom : d.digits * 10 ^ k < 10 * digitRoom) :
    balanced (keptDigits (Numeral.ofDecimal negative d)) = ⟨d.digits * 10 ^ k, 0⟩ := by
  have hform := Numeral.decimalForm negative d
  generalize Numeral.ofDecimal negative d = n at hform
  generalize numberLayout.decimalChars d = cs at hform
  cases hform with
  | whole e he =>
    obtain rfl : e = k := Int.ofNat.inj (he.symm.trans hk)
    exact balanced_keptDigits_whole negative (Digits.natFrom?_chars_append_zeros d.digits e) hroom
  | pointed e he h => cases he.symm.trans hk
  | small e he h => cases he.symm.trans hk
  | scientific sign hsign h =>
    have hlength : 0 < d.chars.length := List.length_pos_iff.mpr (Digits.chars_ne_nil _)
    have hexponent : d.exponent = (k : Int) := hk
    have hlead : d.leadingExponent = (k : Int) + d.chars.length - 1 := by
      rw [leadingExponent, hexponent]
    have hplus : sign = '+' := by
      rw [hsign, if_pos (by omega)]
    have hdigits : d.digits < 10 ^ 20 :=
      Nat.lt_of_le_of_lt (Nat.le_mul_of_pos_right _ (by positivity))
        (Nat.lt_of_lt_of_le hroom (by decide))
    have hpower : k < 20 := by
      rcases hd with hpos | hzero
      · refine (Nat.pow_lt_pow_iff_right (a := 10) (by decide)).mp ?_
        exact Nat.lt_of_le_of_lt (Nat.le_mul_of_pos_left _ hpos)
          (Nat.lt_of_lt_of_le hroom (by decide))
      · omega
    have hshort : d.chars.length ≤ 20 := Nat.toDigits_length 10 d.digits 20 (by decide) hdigits
    have hchars : Digits.natFrom? 0 (d.chars.take 1 ++ d.chars.drop 1) = some d.digits := by
      rw [List.take_append_drop]
      simpa [Decimal.chars] using Digits.natFrom?_chars_append_zeros d.digits 0
    have hwritten : Digits.natFrom? 0 (Digits.chars d.leadingExponent.natAbs) =
        some d.leadingExponent.natAbs := by
      simpa using Digits.natFrom?_chars_append_zeros d.leadingExponent.natAbs 0
    obtain ⟨whole, hwhole, hfraction⟩ := gatherDigits_append hchars
      (Nat.lt_of_le_of_lt (Nat.le_mul_of_pos_right _ (by positivity)) hroom)
    subst hplus
    have hkept : keptDigits ⟨negative, d.chars.take 1, d.chars.drop 1, ['e', '+'],
        Digits.chars d.leadingExponent.natAbs⟩ = ⟨d.digits, k⟩ := by
      unfold keptDigits
      simp only [hwhole, hfraction, exponentOf_eq hwritten (by omega)]
      congr 1
      show (d.leadingExponent.natAbs : Int) + (0 : Nat) - ((d.chars.drop 1).length - 0 : Nat) = k
      rw [List.length_drop]
      omega
    rw [hkept]
    exact appendZeros_eq (Nat.lt_of_lt_of_le hroom (by decide))

end Sql

/-! ## Floats that are read -/

namespace Sql

open Float.Model Float.Model.UnpackedFloat

/-- What is read from a numeral is defined. -/
theorem isNaN_toUnpacked (sign : Sign) (x : Extended) : (x.toUnpacked sign).isNaN = false := by
  unfold Extended.toUnpacked
  split
  · rfl
  · exact isNaN_roundWithAccuracy ..

/-- The parts of a normal number are read back from its bits. -/
theorem ofFloat_ofModel {m : Nat} {e : Int} (h : Normal m e) (s : Sign) :
    Binary64.ofFloat (.ofModel (.pack (.finite s m e h.pos))) = .finite (isNegative s) m e := by
  have hparts : (Float.ofModel (.pack (.finite s m e h.pos))).toModel.unpack =
      .finite s m e h.pos := unpack_pack h s
  exact ofFloat_of_unpack hparts

end Sql

namespace Json.Numeral

open Quarry.Sql

/-- The float that a numeral is read as is defined. -/
theorem isNaN_approximate (n : Numeral) : n.approximate.isNaN = false := by
  refine isNaN_unpack_pack ?_
  split
  · rfl
  · exact isNaN_toUnpacked _ _

variable {n : Numeral} {digits : Nat}

/-- An integer that is a normal number is read as such. -/
theorem ofFloat_approximate (hkept : balanced (keptDigits n) = ⟨digits, 0⟩)
    (hroom : digits < 10 * digitRoom) {m : Nat} {e : Int} (h : Normal m e)
    (hvalue : (digits : Rat) = m * 2 ^ e) :
    Binary64.ofFloat n.approximate = .finite n.negative m e := by
  have hdigits : digits ≠ 0 := (h.pos_of_value ((mul_one _).trans hvalue)).ne'
  have hfinite : ¬ Extended.greatestFinite < digits :=
    Nat.not_lt.mpr (hroom.le.trans (by decide +kernel))
  have hread : ∀ s, (Extended.ofDecimal ⟨digits, 0⟩).toUnpacked s = .finite s m e h.pos :=
    fun s => (if_neg hfinite).trans (round_exact h s hvalue)
  unfold approximate
  simp only [hkept, if_neg hdigits, hread]
  cases n.negative with
  | false => exact ofFloat_ofModel h .positive
  | true => exact ofFloat_ofModel h .negative

/-- So is zero. -/
theorem ofFloat_approximate_zero (hkept : (balanced (keptDigits n)).digits = 0) :
    Binary64.ofFloat n.approximate = .finite n.negative 0 Binary64.leastExponent := by
  unfold approximate
  simp only [if_pos hkept]
  cases n.negative with
  | false => decide +kernel
  | true => decide +kernel

end Json.Numeral

/-! ## Integers that floats hold -/

namespace Decimal

open Quarry.Json Quarry.Sql

/-- The integers that floats hold: those of at most fifty-three bits and some zeros. -/
def Binary64.Holds (n : Int) : Prop := ∃ m k : Nat, m < 2 ^ 53 ∧ n.natAbs = m * 2 ^ k

theorem natCast_one_shiftLeft (k : Nat) : ((1 <<< k : Nat) : Int) = (2 ^ k : Nat) :=
  congrArg Nat.cast (Nat.one_shiftLeft k)

-- The places are kept apart from the powers, so that no power of this size is ever computed.
theorem exists_unitsOfOne : ∃ p : Nat, p = 1074 ∧ unitsOfOne = (2 ^ p : Nat) :=
  ⟨_, rfl, natCast_one_shiftLeft _⟩

theorem exists_unitsOfInfinity : ∃ q : Nat, q = 2200 ∧ unitsOfInfinity = (2 ^ q : Nat) :=
  ⟨_, rfl, natCast_one_shiftLeft _⟩

theorem sub_leastExponent {p : Nat} (hp : p = 1074) (e : Int) :
    e - Binary64.leastExponent = e + p := by
  rw [hp]
  rfl

theorem natAbs_signed (negative : Bool) (n : Nat) : (Binary64.signed negative n).natAbs = n := by
  cases negative with
  | false => rfl
  | true => exact Int.natAbs_neg _

/-- A number of units that is an integer. -/
theorem eq_natAbs_mul {negative : Bool} {units p : Nat} {n : Int}
    (hp : unitsOfOne = (2 ^ p : Nat)) (h : Binary64.signed negative units = n * unitsOfOne) :
    units = n.natAbs * 2 ^ p := by
  rw [← natAbs_signed negative units, h, Int.natAbs_mul, hp, Int.natAbs_natCast]

/-- A float that is an integer is one that floats hold. -/
theorem holds_of_floatKey {x : Float} {n : Int}
    (h : floatKey (.ofFloat x) = .number (n * unitsOfOne)) : Binary64.Holds n := by
  obtain ⟨p, hp, hone⟩ := exists_unitsOfOne
  have hpos : 0 < 2 ^ p := Nat.two_pow_pos p
  cases hparts : Binary64.ofFloat x with
  | nan =>
    rw [hparts] at h
    cases h
  | infinite negative =>
    obtain ⟨q, hq, hinfinity⟩ := exists_unitsOfInfinity
    rw [hparts, floatKey, hinfinity] at h
    have hunits := eq_natAbs_mul hone (SortKey.number.inj h)
    refine ⟨1, q - p, by decide, Nat.mul_right_cancel hpos ?_⟩
    rw [← hunits, Nat.one_mul, ← Nat.pow_add, Nat.sub_add_cancel (by omega)]
  | finite negative m e =>
    rw [hparts] at h
    obtain ⟨hm, he⟩ := bounds_of_ofFloat hparts
    have hunits := eq_natAbs_mul hone (SortKey.number.inj h)
    rw [Nat.shiftLeft_eq, sub_leastExponent hp] at hunits
    rcases le_total 0 e with hsign | hsign
    · obtain ⟨k, rfl⟩ := Int.eq_ofNat_of_zero_le hsign
      refine ⟨m, k, hm, Nat.mul_right_cancel hpos ?_⟩
      rw [← hunits, Nat.mul_assoc, ← Nat.pow_add]
      congr 2
    · refine ⟨n.natAbs, 0, ?_, (Nat.mul_one _).symm⟩
      calc n.natAbs ≤ m := by
            refine Nat.le_of_mul_le_mul_right ?_ hpos
            rw [← hunits]
            exact Nat.mul_le_mul_left m (Nat.pow_le_pow_right (by decide) (by omega))
        _ < 2 ^ 53 := hm

/-- A normal number that is an integer counts as this integer. -/
theorem floatKey_normal {m : Nat} {e : Int} (h : Normal m e) {n : Nat}
    (hvalue : (n : Rat) = m * 2 ^ e) (negative : Bool) :
    floatKey (.finite negative m e) = .number (Binary64.signed negative n * unitsOfOne) := by
  obtain ⟨p, hp, hone⟩ := exists_unitsOfOne
  have hleast := h.least
  have hunits : m * 2 ^ (e - Binary64.leastExponent).toNat = n * 2 ^ p := by
    have hsame := mul_two_pow_eq_mul (a := n) (b := m) (x := 0) (y := e) (z := -p)
      (by rw [zpow_zero, mul_one, hvalue]) (by omega) (by omega)
    rw [sub_neg_eq_add, sub_neg_eq_add, zero_add, Int.toNat_natCast] at hsame
    rw [sub_leastExponent hp, hsame]
  rw [floatKey, Nat.shiftLeft_eq, hunits, hone]
  cases negative with
  | false =>
    show SortKey.number ((n * 2 ^ p : Nat) : Int) = .number ((n : Int) * (2 ^ p : Nat))
    rw [Int.natCast_mul]
  | true =>
    show SortKey.number (-((n * 2 ^ p : Nat) : Int)) = .number (-(n : Int) * (2 ^ p : Nat))
    rw [Int.natCast_mul, Int.neg_mul]

/-- A decimal that is an integer which floats hold is read as this integer. -/
theorem floatKey_approximate_ofDecimal (negative : Bool) {d : Decimal} (hd : d.IsTrimmed) {n : Nat}
    (h : d.whole? = some n) (hroom : n < 10 * digitRoom) (hholds : Binary64.Holds n) :
    floatKey (.ofFloat (Numeral.ofDecimal negative d).approximate) =
      .number (Binary64.signed negative n * unitsOfOne) := by
  obtain ⟨k, hk, rfl⟩ : ∃ k : Nat, d.exponent = .ofNat k ∧ d.digits * 10 ^ k = n := by
    unfold whole? at h
    cases hexponent : d.exponent with
    | ofNat k =>
      rw [hexponent] at h
      exact ⟨k, rfl, Option.some.inj h⟩
    | negSucc k =>
      rw [hexponent] at h
      cases h
  have hkept := balanced_keptDigits negative hd hk hroom
  have hnegative := Numeral.negative_ofDecimal negative d
  generalize Numeral.ofDecimal negative d = numeral at hkept hnegative ⊢
  rcases Nat.eq_zero_or_pos d.digits with hzero | hpos
  · rw [Numeral.ofFloat_approximate_zero (by rw [hkept, hzero, Nat.zero_mul]), hzero,
      Nat.zero_mul, floatKey, Nat.zero_shiftLeft]
    cases numeral.negative <;> cases negative <;> simp [Binary64.signed]
  · obtain ⟨a, b, ha, hab⟩ := hholds
    rw [Int.natAbs_natCast] at hab
    have hn : 0 < d.digits * 10 ^ k := by positivity
    have hapos : 0 < a := Nat.pos_of_mul_pos_right (hab ▸ hn)
    have hb : b < 67 := by
      refine (Nat.pow_lt_pow_iff_right (a := 2) (by decide)).mp ?_
      calc 2 ^ b ≤ a * 2 ^ b := Nat.le_mul_of_pos_left _ hapos
        _ < 10 * digitRoom := hab ▸ hroom
        _ < 2 ^ 67 := by decide
    obtain ⟨m, e, hnormal, hvalue⟩ := exists_normal hapos ha (k := b) (by omega)
    rw [← hab] at hvalue
    rw [Numeral.ofFloat_approximate hkept hroom hnormal hvalue, hnegative]
    exact floatKey_normal hnormal hvalue negative

/-- What was written is read as the integer of the plain text just if floats hold this integer. -/
theorem floatKey_approximate_iff {x : Float} (hx : (Binary64.ofFloat x).isFinite = true) {n : Int}
    (h : Digits.int64Of? (plain.render x) = some n) :
    floatKey (.ofFloat (Numeral.ofFloat x).approximate) = .number (n * unitsOfOne) ↔
      Binary64.Holds n := by
  refine ⟨holds_of_floatKey, fun hholds => ?_⟩
  obtain ⟨negative, m, e, hparts⟩ := Numeral.exists_parts_of_isFinite hx
  rw [int64Of?_plain hparts, Option.filter_eq_some_iff, Option.map_eq_some_iff] at h
  obtain ⟨⟨size, hsize, rfl⟩, hfits⟩ := h
  have hbound : size < 10 * digitRoom := by
    obtain ⟨hlow, hhigh⟩ := Digits.fitsInt64_iff.mp hfits
    have := natAbs_signed negative size
    unfold Digits.int64Min at hlow
    unfold Digits.int64Max at hhigh
    unfold digitRoom
    omega
  rw [Numeral.ofFloat_eq hparts]
  refine floatKey_approximate_ofDecimal negative (isTrimmed_ofParts m e) hsize hbound ?_
  obtain ⟨a, b, ha, hab⟩ := hholds
  exact ⟨a, b, ha, by rwa [natAbs_signed] at hab⟩

end Decimal

end Quarry
