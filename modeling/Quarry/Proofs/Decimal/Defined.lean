/-
# Floats that are defined

The parts of a float tell undefined numbers apart from all others; rounding never makes one.

* `ofFloat_eq_nan` — the parts of a float are undefined exactly when the float is.
* `isNaN_unpack_pack` — a defined number is read back from its bits as one.
* `isNaN_roundWithAccuracy` — a rounded number is defined.
-/
import Mathlib
import Quarry.Decimal.Binary64

namespace Quarry.Decimal

open Float.Model Float.Model.UnpackedFloat

/-! ## Bits -/

/-- Bits stand for an undefined number when the exponent is all ones and the fraction is not
zero. -/
theorem isNaN_unpack {spec : Format} {b : BitVec spec.numBits} :
    (UnpackedFloat.unpack spec b).isNaN = true ↔
      unpackExponent b = -1#_ ∧ unpackMantissa b ≠ 0#_ := by
  unfold UnpackedFloat.unpack
  by_cases he : unpackExponent b = -1#_
  · by_cases hm : unpackMantissa b = 0#_ <;> simp [he, hm, UnpackedFloat.isNaN]
  · simp only [he, false_and, iff_false, ↓reduceIte]
    split
    · split <;> simp [UnpackedFloat.isNaN]
    · simp [UnpackedFloat.isNaN]

/-- Packing leaves a defined number defined. -/
theorem isNaN_unpack_pack {u : UnpackedFloat} (h : u.isNaN = false) :
    (UnpackedFloat.unpack .binary64 (UnpackedFloat.pack .binary64 u)).isNaN = false := by
  rw [← Bool.not_eq_true, isNaN_unpack]
  rintro ⟨he, hm⟩
  apply hm
  revert he
  fun_cases UnpackedFloat.pack with
  | case1 => cases h
  | case2 s => simp [packedInfinity]
  | case3 s => simp [packedZero]
  | case4 s m e hm biasedExponent h => simp [packedInfinity]
  | case5 s m e hm actualMantissaBits biasedExponent h₁ h₂ =>
    intro he
    rw [unpackExponent_packComponents] at he
    have hnat := congrArg BitVec.toNat he
    -- The exponent of a normal number stays below the one that is all ones.
    have hlt : biasedExponent + 1 < 2 ^ 11 := Nat.lt_of_not_le h₁
    rw [BitVec.toNat_ofNat, Nat.mod_eq_of_lt (by omega)] at hnat
    simp [BitVec.neg_one_eq_allOnes] at hnat
    omega
  | case6 s m e hm actualMantissaBits biasedExponent h₁ h₂ =>
    intro he
    rw [unpackExponent_packComponents] at he
    exact absurd he (by decide)

/-- The exponent of a float is all ones when its field in the bits is. -/
theorem unpackExponent_eq_ones {x : Float} :
    @unpackExponent .binary64 x.toModel.toBits.toBitVec = -1#_ ↔
      x.toBits.toNat >>> 52 % 2048 = 2047 := by
  rw [← BitVec.toNat_inj]
  simp [unpackExponent]
  rfl

/-- The fraction of a float is zero when its field in the bits is. -/
theorem unpackMantissa_eq_zero {x : Float} :
    @unpackMantissa .binary64 x.toModel.toBits.toBitVec = 0#_ ↔
      x.toBits.toNat % Binary64.hidden = 0 := by
  rw [← BitVec.toNat_inj]
  simp [unpackMantissa]
  rfl

/-- The parts of a float are undefined exactly when the float is. -/
theorem ofFloat_eq_nan {x : Float} : Binary64.ofFloat x = .nan ↔ x.isNaN = true := by
  show _ ↔ (UnpackedFloat.unpack .binary64 _).isNaN = true
  rw [isNaN_unpack, unpackExponent_eq_ones, Ne, unpackMantissa_eq_zero]
  unfold Binary64.ofFloat
  simp only
  by_cases hfield : x.toBits.toNat >>> 52 % 2048 = 2047
  · rw [if_pos hfield]
    by_cases hfraction : x.toBits.toNat % Binary64.hidden = 0
    · rw [if_pos hfraction]
      exact ⟨nofun, fun h => absurd hfraction h.2⟩
    · rw [if_neg hfraction]
      exact ⟨fun _ => ⟨hfield, hfraction⟩, fun _ => rfl⟩
  · rw [if_neg hfield]
    refine ⟨fun h => ?_, fun h => absurd h.1 hfield⟩
    by_cases hzero : x.toBits.toNat >>> 52 % 2048 = 0
    · rw [if_pos hzero] at h
      cases h
    · rw [if_neg hzero] at h
      cases h

/-! ## Rounding -/

theorem isNaN_roundWithAccuracy (spec : Format) (s : Sign) (m : Nat) (e : Int) (a : Accuracy) :
    (roundWithAccuracy spec s m e a).isNaN = false := by
  unfold roundWithAccuracy
  simp only
  split <;> rfl

end Quarry.Decimal
