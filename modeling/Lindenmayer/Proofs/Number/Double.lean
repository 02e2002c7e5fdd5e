import Lindenmayer.Number.Binary
import Lindenmayer.Proofs.Number.Rounding
import Mathlib

/-!
# Bits of doubles

A double is put together from its sign, its exponent and its fraction just as it is taken apart. So
the parts tell the double, and the magnitudes of finite doubles have the form that rounding gives.
-/

namespace Lindenmayer

open Float.Model (Format)
open Float.Model.UnpackedFloat

theorem toNat_unpackMantissa (bits : BitVec 64) :
    (@unpackMantissa Format.binary64 bits).toNat = bits.toNat % 2 ^ 52 := by
  simp [unpackMantissa, BitVec.extractLsb_toNat]

theorem toNat_unpackExponent (bits : BitVec 64) :
    (@unpackExponent Format.binary64 bits).toNat = bits.toNat / 2 ^ 52 % 2 ^ 11 := by
  simp [unpackExponent, BitVec.extractLsb_toNat, Nat.shiftRight_eq_div_pow]

theorem ofBits_eq {float : Float} {bits : UInt64} (hbits : bits.toNat = float.toBits.toNat) :
    Float.ofBits bits = float := by
  rw [UInt64.toNat_inj.mp hbits, Float.ofBits_toBits]

namespace FloatParts

theorem signBit_eq : signBit = 2 ^ 63 := rfl

theorem leadingBit_eq : leadingBit = 2 ^ 52 := rfl

theorem exponentPatterns_eq : exponentPatterns = 2 ^ 11 := rfl

/-- There is one bit pattern for all doubles that are no numbers. -/
theorem toBits_of_nan {float : Float}
    (hexponent : float.toBits.toNat / 2 ^ 52 % 2 ^ 11 = 2 ^ 11 - 1)
    (hfraction : float.toBits.toNat % 2 ^ 52 ≠ 0) : float.toBits = 0x7FF8000000000000 := by
  have hbits : float.toBits.toBitVec = packedNaN Format.binary64 := by
    refine float.toModel.valid.eq_packedNaN (BitVec.eq_of_toNat_eq ?_) fun hzero => hfraction ?_
    · exact (toNat_unpackExponent _).trans hexponent
    · exact (toNat_unpackMantissa _).symm.trans (congrArg BitVec.toNat hzero)
  rw [← UInt64.toBitVec_inj, hbits]
  decide

/-- The bits of a double are its sign and the rest. -/
theorem signBit_add_rest {bits rest : ℕ} (hbits : bits < 2 ^ 64) (hrest : rest = bits % 2 ^ 63) :
    (if decide (2 ^ 63 ≤ bits) then 2 ^ 63 else 0) + rest = bits := by
  subst hrest
  split
  next hset =>
    rw [decide_eq_true_eq] at hset
    omega
  next hunset =>
    rw [decide_eq_true_eq] at hunset
    omega

/-- Taking a double apart loses nothing. -/
theorem toFloat_ofFloat (float : Float) : (ofFloat float).toFloat = float := by
  have hlt := float.toBits.toNat_lt
  have hfinite : ∀ magnitude, magnitudeBits magnitude = float.toBits.toNat % 2 ^ 63 →
      (finite (decide (2 ^ 63 ≤ float.toBits.toNat)) magnitude).toFloat = float := by
    intro magnitude hmagnitude
    apply ofBits_eq
    rw [signBit_eq, signBit_add_rest hlt hmagnitude, UInt64.ofNat_toNat]
  rw [ofFloat, signBit_eq, leadingBit_eq, exponentPatterns_eq]
  by_cases hlast : float.toBits.toNat / 2 ^ 52 % 2 ^ 11 + 1 = 2 ^ 11
  -- The last pattern of the exponent stands for infinity and for what is no number.
  · rw [if_pos hlast]
    by_cases hzero : float.toBits.toNat % 2 ^ 52 = 0
    · rw [if_pos hzero]
      apply ofBits_eq
      rw [← signBit_add_rest hlt (show 2047 * 2 ^ 52 = _ by omega)]
      split <;> rfl
    · rw [if_neg hzero]
      apply ofBits_eq
      rw [toBits_of_nan (by omega) hzero]
  · rw [if_neg hlast]
    -- Magnitudes with the least pattern have no leading bit.
    by_cases hleast : float.toBits.toNat / 2 ^ 52 % 2 ^ 11 = 0
    · rw [if_pos hleast]
      apply hfinite
      rw [magnitudeBits, leadingBit_eq, if_pos (Nat.mod_lt _ (by decide))]
      dsimp only
      omega
    · rw [if_neg hleast]
      apply hfinite
      rw [magnitudeBits, leadingBit_eq, if_neg (by dsimp only; omega)]
      dsimp only
      rw [sub_add_cancel, Int.toNat_natCast]
      omega

/-- The magnitude of a finite double has the form that rounding gives. -/
theorem admits_of_ofFloat {float : Float} {negative : Bool} {magnitude : Magnitude}
    (hparts : ofFloat float = .finite negative magnitude) :
    BinaryFormat.double.Admits magnitude := by
  have hlimit : BinaryFormat.double.limit = 2 ^ 53 := by decide
  have hfraction : float.toBits.toNat % 2 ^ 52 < 2 ^ 52 := Nat.mod_lt _ (by decide)
  have hexponent : float.toBits.toNat / 2 ^ 52 % 2 ^ 11 < 2 ^ 11 := Nat.mod_lt _ (by decide)
  rw [ofFloat, signBit_eq, leadingBit_eq, exponentPatterns_eq] at hparts
  split at hparts
  next hlast => split at hparts <;> simp at hparts
  next hlast =>
    split at hparts
    next hleast =>
      obtain ⟨-, rfl⟩ := FloatParts.finite.inj hparts
      refine ⟨?_, Or.inr rfl, le_rfl, show (-1074 : ℤ) ≤ 971 by decide⟩
      rw [hlimit]
      dsimp only
      omega
    next hleast =>
      obtain ⟨-, rfl⟩ := FloatParts.finite.inj hparts
      refine ⟨?_, Or.inl ?_, ?_, ?_⟩
      · rw [hlimit]
        dsimp only
        omega
      · rw [hlimit]
        dsimp only
        omega
      · change (-1074 : ℤ) ≤ _
        dsimp only
        omega
      · change _ ≤ (971 : ℤ)
        dsimp only
        omega

end FloatParts

end Lindenmayer
