/-
# Numbers that floats hold exactly

Rounding keeps a number that a float holds, and so do the bits of the float.

* `Normal` — the numbers `m * 2 ^ e` that a float holds with all bits of its significand.
* `round_exact` — rounding keeps them. `unpack_pack` — they are read back from their bits.
* `ofFloat_of_unpack` — the parts of a float are those of its bits.
-/
import Quarry.Proofs.Decimal.Defined

namespace Quarry.Decimal

open Float.Model Float.Model.UnpackedFloat

/-! ## Powers of two -/

theorem log2_mul_two_pow {n : Nat} (h : n ≠ 0) (k : Nat) : (n * 2 ^ k).log2 = n.log2 + k := by
  induction k with
  | zero => simp
  | succ k ih =>
    rw [Nat.pow_succ', Nat.mul_left_comm, Nat.log2_two_mul (by positivity), ih]
    omega

/-- Numbers written with two exponents, both moved to one that is not above them. -/
theorem mul_two_pow_eq_mul {a b : Nat} {x y z : Int} (h : (a : Rat) * 2 ^ x = b * 2 ^ y)
    (hx : z ≤ x) (hy : z ≤ y) : a * 2 ^ (x - z).toNat = b * 2 ^ (y - z).toNat := by
  have hmove : ∀ {w : Int}, z ≤ w → (2 : Rat) ^ w = 2 ^ (w - z).toNat * 2 ^ z := by
    intro w hw
    rw [← zpow_natCast, ← zpow_add₀ (by norm_num)]
    congr 1
    omega
  rw [hmove hx, hmove hy, ← mul_assoc, ← mul_assoc] at h
  have hpos : (2 : Rat) ^ z ≠ 0 := by positivity
  exact_mod_cast mul_right_cancel₀ hpos h

theorem mul_two_pow_eq {a b : Nat} {x y : Int} (h : (a : Rat) * 2 ^ x = b * 2 ^ y) (hle : x ≤ y) :
    a = b * 2 ^ (y - x).toNat := by
  have hsame := mul_two_pow_eq_mul h le_rfl hle
  rwa [sub_self, Int.toNat_zero, Nat.pow_zero, Nat.mul_one] at hsame

/-- The place of the first bit does not depend on how a number is written. -/
theorem log2_add_eq {a b : Nat} (ha : a ≠ 0) (hb : b ≠ 0) {x y : Int}
    (h : (a : Rat) * 2 ^ x = b * 2 ^ y) : (a.log2 : Int) + x = b.log2 + y := by
  rcases le_total x y with hle | hle
  · rw [mul_two_pow_eq h hle, log2_mul_two_pow hb]
    omega
  · rw [mul_two_pow_eq h.symm hle, log2_mul_two_pow ha]
    omega

/-! ## Normal numbers -/

/-- The numbers `m * 2 ^ e` that a float holds with all bits of its significand. -/
structure Normal (m : Nat) (e : Int) : Prop where
  low : 2 ^ 52 ≤ m
  high : m < 2 ^ 53
  least : -1074 ≤ e
  greatest : e ≤ 971

namespace Normal

variable {m : Nat} {e : Int}

theorem pos (h : Normal m e) : 0 < m := Nat.lt_of_lt_of_le (by decide) h.low

theorem log2_eq (h : Normal m e) : m.log2 = 52 :=
  (Nat.log2_eq_iff h.pos.ne').mpr ⟨h.low, h.high⟩

theorem value_pos (h : Normal m e) : (0 : Rat) < m * 2 ^ e := by
  have := h.pos
  positivity

/-- Other ways to write such a number have digits, too. -/
theorem pos_of_value (h : Normal m e) {n : Nat} {r : Rat} (hvalue : (n : Rat) * r = m * 2 ^ e) :
    0 < n := by
  refine Nat.pos_of_ne_zero ?_
  rintro rfl
  have hpos := h.value_pos
  rw [← hvalue] at hpos
  simp at hpos

end Normal

variable {m : Nat} {e : Int}

/-- Numbers of at most fifty-three bits are normal numbers. -/
theorem exists_normal {a : Nat} (ha : 0 < a) (hbits : a < 2 ^ 53) {k : Nat} (hk : k ≤ 971) :
    ∃ m e, Normal m e ∧ ((a * 2 ^ k : Nat) : Rat) = m * 2 ^ e := by
  have hlog : a.log2 < 53 := (Nat.log2_lt ha.ne').mpr hbits
  have hm : (a * 2 ^ (52 - a.log2)).log2 = 52 := by
    rw [log2_mul_two_pow ha.ne']
    omega
  have hbounds := (Nat.log2_eq_iff (by positivity)).mp hm
  refine ⟨a * 2 ^ (52 - a.log2), (k : Int) - (52 - a.log2 : Nat),
    ⟨hbounds.1, hbounds.2, by omega, by omega⟩, ?_⟩
  push_cast
  rw [mul_assoc, ← zpow_natCast, ← zpow_natCast, ← zpow_add₀ (by norm_num)]
  congr 2
  omega

/-! ## Rounding -/

/-- Zeros that are shifted out leave nothing behind. -/
theorem shiftRight_exact (m k : Nat) :
    (ExtendedMantissa.mk (m * 2 ^ k) false false) >>> k = ⟨m, false, false⟩ := by
  show k.repeat ExtendedMantissa.shiftRightOne _ = _
  induction k generalizing m with
  | zero => simp [Nat.repeat]
  | succ k ih =>
    have hdouble : m * 2 ^ (k + 1) = m * 2 * 2 ^ k := by ring
    rw [Nat.repeat, hdouble, ih]
    simp [ExtendedMantissa.shiftRightOne]

theorem targetExponent_eq (h : Normal m e) {t : Int} (ht : t = 53 + e) :
    Format.binary64.targetExponent t = e := by
  have hbits : (Format.binary64.mantissaBits : Int) = 53 := rfl
  have hleast : Format.binary64.minExponent = -1074 := rfl
  have := h.least
  rw [Format.targetExponent, hbits, hleast]
  omega

theorem shiftToTargetExponent_exact (h : Normal m e) (k : Nat) :
    shiftToTargetExponent .binary64 (m * 2 ^ k) (e - k) .exact = (⟨m, false, false⟩, e) := by
  have htarget : Format.binary64.targetExponent (totalExponent (m * 2 ^ k) (e - k)) = e := by
    refine targetExponent_eq h ?_
    rw [totalExponent, log2_mul_two_pow h.pos.ne', h.log2_eq]
    omega
  have hshift : (e - (e - k)).toNat = k := by omega
  rw [shiftToTargetExponent, htarget, shiftToExponent, hshift]
  refine Prod.ext_iff.mpr ⟨shiftRight_exact m k, ?_⟩
  show e - k + k = e
  omega

/-- Rounding keeps a normal number, however it is written. -/
theorem roundWithAccuracy_exact (h : Normal m e) (s : Sign) {n : Nat} {x : Int}
    (hvalue : (n : Rat) * 2 ^ x = m * 2 ^ e) (hle : x ≤ e) :
    roundWithAccuracy .binary64 s n x .exact = .finite s m e h.pos := by
  have hn := mul_two_pow_eq hvalue hle
  obtain ⟨k, rfl⟩ : ∃ k : Nat, x = e - k := ⟨(e - x).toNat, by omega⟩
  rw [show (e - (e - k)).toNat = k by omega] at hn
  have hagain := shiftToTargetExponent_exact h 0
  rw [Nat.pow_zero, Nat.mul_one, Nat.cast_zero, sub_zero] at hagain
  have hm : ¬ m = 0 := h.pos.ne'
  unfold roundWithAccuracy
  rw [hn, shiftToTargetExponent_exact h]
  simp only [show ExtendedMantissa.roundedMantissa ⟨m, false, false⟩ = m from rfl, hagain, hm,
    ↓reduceDIte]

theorem round_exact (h : Normal m e) (s : Sign) {n : Nat}
    (hvalue : (n : Rat) = m * 2 ^ e) :
    UnpackedFloat.round .binary64 s n 0 = .finite s m e h.pos := by
  have hn : n ≠ 0 := (h.pos_of_value ((mul_one _).trans hvalue)).ne'
  have hlog : (n.log2 : Int) + 0 = m.log2 + e :=
    log2_add_eq hn h.pos.ne' (by rw [zpow_zero, mul_one, hvalue])
  have htarget : Format.binary64.targetExponent (totalExponent n 0) = e := by
    refine targetExponent_eq h ?_
    rw [totalExponent]
    rw [h.log2_eq] at hlog
    omega
  unfold UnpackedFloat.round decreaseExponent
  rw [htarget]
  refine roundWithAccuracy_exact h s ?_ (by omega)
  rw [Nat.shiftLeft_eq, ← hvalue]
  push_cast
  rw [mul_assoc, ← zpow_natCast, ← zpow_add₀ (by norm_num)]
  simp

/-! ## Bits -/

theorem unpackSign_packComponents {spec : Format} {s : Sign} {e : BitVec spec.exponentBits}
    {m : BitVec spec.mantissaBitsWithoutImplicit} :
    unpackSign (packComponents spec s e m) = s.toBitVec := by
  ext i hi
  obtain rfl : i = 0 := by omega
  simp [unpackSign, packComponents, BitVec.getLsbD_append, BitVec.getElem_append]

/-- The bits of a normal number are its sign, its exponent and its digits without the first. -/
theorem pack_eq (h : Normal m e) (s : Sign) {field : Nat} (hfield : (field : Int) = e + 1023 + 52) :
    UnpackedFloat.pack .binary64 (.finite s m e h.pos) =
      packComponents .binary64 s (BitVec.ofNat 11 field) (BitVec.ofNat 52 m) := by
  have hgreatest := h.greatest
  have hfinite : ¬ 2 ^ 11 ≤ field + 1 := by omega
  have hbiased : (e + Format.binary64.exponentBias +
      Format.binary64.mantissaBitsWithoutImplicit).toNat = field := by
    show (e + 1023 + 52).toNat = field
    omega
  have hbits : m.log2 + 1 = Format.binary64.mantissaBits := by
    rw [h.log2_eq]
    rfl
  unfold UnpackedFloat.pack
  simp only [hbiased]
  rw [if_neg hfinite, if_pos hbits]

/-- The first digit of a normal number is put before the others again. -/
theorem toNat_significand (h : Normal m e) : (1#1 ++ BitVec.ofNat 52 m).toNat = m := by
  have hlow := h.low
  have hhigh := h.high
  rw [BitVec.toNat_append, ← Nat.shiftLeft_add_eq_or_of_lt (BitVec.isLt _), BitVec.toNat_ofNat]
  simp
  omega

/-- A normal number is read back from its bits. -/
theorem unpack_pack (h : Normal m e) (s : Sign) :
    UnpackedFloat.unpack .binary64 (UnpackedFloat.pack .binary64 (.finite s m e h.pos)) =
      .finite s m e h.pos := by
  have hleast := h.least
  have hgreatest := h.greatest
  obtain ⟨field, hfield⟩ : ∃ field : Nat, (field : Int) = e + 1023 + 52 :=
    ⟨(e + 1023 + 52).toNat, by omega⟩
  have hcast : (BitVec.ofNat 11 field).toNat = field := by
    rw [BitVec.toNat_ofNat, Nat.mod_eq_of_lt (by omega)]
  have hne : ∀ b : BitVec 11, b.toNat ≠ field → BitVec.ofNat 11 field ≠ b := by
    rintro b hb rfl
    exact hb hcast
  have hones : BitVec.ofNat 11 field ≠ -1#11 := hne _ (show 2047 ≠ field by omega)
  have hzeros : BitVec.ofNat 11 field ≠ 0#11 := hne _ (show 0 ≠ field by omega)
  have hexponent : ((BitVec.ofNat 11 field).toNat : Int) -
      (Format.binary64.exponentBias + (52 : Nat)) = e := by
    rw [hcast]
    show (field : Int) - (1023 + 52) = e
    omega
  have hsign : Sign.ofBitVec s.toBitVec = s := by cases s <;> rfl
  rw [pack_eq h s hfield]
  unfold UnpackedFloat.unpack
  simp only [unpackMantissa_packComponents, unpackExponent_packComponents,
    unpackSign_packComponents]
  rw [if_neg hones, if_neg hzeros]
  simp only [hexponent, toNat_significand h, hsign]

/-! ## Parts -/

/-- Whether a sign is a minus sign. -/
def isNegative : Sign → Bool
  | .negative => true
  | .positive => false

/-- The fields of a float. -/
theorem toNat_unpackExponent (x : Float) :
    (@unpackExponent .binary64 x.toModel.toBits.toBitVec).toNat = x.toBits.toNat >>> 52 % 2048 := by
  simp [unpackExponent]
  rfl

theorem toNat_unpackMantissa (x : Float) :
    (@unpackMantissa .binary64 x.toModel.toBits.toBitVec).toNat =
      x.toBits.toNat % Binary64.hidden := by
  simp [unpackMantissa]
  rfl

theorem isNegative_unpackSign (x : Float) :
    isNegative (Sign.ofBitVec (@unpackSign .binary64 x.toModel.toBits.toBitVec)) =
      (x.toBits.toNat >>> 63 % 2 == 1) := by
  have hbit : (@unpackSign .binary64 x.toModel.toBits.toBitVec).toNat =
      x.toBits.toNat >>> 63 % 2 := by
    simp [unpackSign]
    rfl
  rw [← hbit]
  generalize @unpackSign .binary64 x.toModel.toBits.toBitVec = b
  revert b
  decide

/-- The parts of a finite float. -/
theorem ofFloat_of_unpack {x : Float} {s : Sign} {m : Nat} {e : Int} {hm : 0 < m}
    (h : x.toModel.unpack = .finite s m e hm) :
    Binary64.ofFloat x = .finite (isNegative s) m e := by
  unfold Binary64.ofFloat
  simp only [← toNat_unpackExponent, ← toNat_unpackMantissa, ← isNegative_unpackSign]
  unfold Float.Model.unpack UnpackedFloat.unpack at h
  have hbias : ((Format.binary64.exponentBias : Int) +
      (Format.binary64.mantissaBitsWithoutImplicit : Nat)) = 1075 := rfl
  have hones : ∀ field : BitVec 11, field = -1#11 ↔ field.toNat = 2047 := by
    intro field
    rw [← BitVec.toNat_inj]
    rfl
  have hzeros : ∀ field : BitVec 11, field = 0#11 ↔ field.toNat = 0 := by
    intro field
    rw [← BitVec.toNat_inj]
    rfl
  have hsignificand : ∀ fraction : BitVec 52,
      (1#1 ++ fraction).toNat = Binary64.hidden + fraction.toNat := by
    intro fraction
    rw [BitVec.toNat_append, ← Nat.shiftLeft_add_eq_or_of_lt (BitVec.isLt _)]
    rfl
  simp only [hbias, hones, hzeros, hsignificand] at h
  split_ifs at h with h₁ h₂ h₃ h₄
  · rw [UnpackedFloat.finite.injEq] at h
    obtain ⟨rfl, rfl, rfl⟩ := h
    rw [if_neg h₁, if_pos h₃, h₃]
    rfl
  · rw [UnpackedFloat.finite.injEq] at h
    obtain ⟨rfl, rfl, rfl⟩ := h
    rw [if_neg h₁, if_neg h₃]
    congr 1
    rw [Binary64.leastExponent]
    ring

/-- A float has at most fifty-three bits, above the place of the smallest numbers. -/
theorem bounds_of_ofFloat {x : Float} {negative : Bool}
    (h : Binary64.ofFloat x = .finite negative m e) : m < 2 ^ 53 ∧ -1074 ≤ e := by
  have hfraction : x.toBits.toNat % Binary64.hidden < Binary64.hidden := Nat.mod_lt _ (by decide)
  have hhidden : Binary64.hidden + Binary64.hidden = 2 ^ 53 := rfl
  have hleast : Binary64.leastExponent = -1074 := rfl
  unfold Binary64.ofFloat at h
  simp only at h
  split_ifs at h with h₁ h₂ h₃
  · rw [Binary64.finite.injEq] at h
    omega
  · rw [Binary64.finite.injEq] at h
    omega

end Quarry.Decimal
