import Lindenmayer.Proofs.Number.Double
import Lindenmayer.Proofs.Number.Magnitudes

/-!
# Parts of doubles

Signs, sizes and kinds of doubles are those of their parts. Changing a sign changes nothing else.
-/

namespace Lindenmayer

namespace FloatParts

open Float.Model (Format UnpackedFloat)
open Float.Model.UnpackedFloat

/-- The sign of a negative number or of one that is not. -/
def sign (negative : Bool) : Sign :=
  if negative then .negative else .positive

/-- Parts in the form in which the operations on doubles take them. -/
def unpacked : FloatParts → UnpackedFloat
  | .nan => .notANumber
  | .infinite negative => .infinity (sign negative)
  | .finite negative ⟨significand, exponent⟩ =>
      if hzero : significand = 0 then .zero (sign negative)
      else .finite (sign negative) significand exponent (Nat.pos_of_ne_zero hzero)

theorem ofBitVec_unpackSign (bits : BitVec 64) :
    Sign.ofBitVec (@unpackSign Format.binary64 bits) = sign (decide (2 ^ 63 ≤ bits.toNat)) := by
  have hbits := bits.isLt
  have hplain : @unpackSign Format.binary64 bits = 0#1 ↔ ¬ 2 ^ 63 ≤ bits.toNat := by
    rw [← BitVec.toNat_inj]
    simp [unpackSign, BitVec.extractLsb_toNat, Nat.shiftRight_eq_div_pow]
    omega
  rw [Sign.ofBitVec, sign]
  by_cases hnegative : 2 ^ 63 ≤ bits.toNat
  · rw [if_neg (hplain.not_left.mpr hnegative), if_pos (decide_eq_true hnegative)]
  · rw [if_pos (hplain.mpr hnegative), if_neg (by simpa using hnegative)]

section Fields

variable (bits : BitVec 64)

theorem unpackExponent_eq_last_iff :
    @unpackExponent Format.binary64 bits = -1#_ ↔ bits.toNat / 2 ^ 52 % 2 ^ 11 + 1 = 2 ^ 11 := by
  rw [← BitVec.toNat_inj, toNat_unpackExponent]
  change _ = 2 ^ 11 - 1 ↔ _
  omega

theorem unpackExponent_eq_zero_iff :
    @unpackExponent Format.binary64 bits = 0#_ ↔ bits.toNat / 2 ^ 52 % 2 ^ 11 = 0 := by
  rw [← BitVec.toNat_inj, toNat_unpackExponent]
  rfl

theorem unpackMantissa_eq_zero_iff :
    @unpackMantissa Format.binary64 bits = 0#_ ↔ bits.toNat % 2 ^ 52 = 0 := by
  rw [← BitVec.toNat_inj, toNat_unpackMantissa]
  rfl

end Fields

/-- Operations on doubles work on their parts. -/
theorem unpack_toModel (float : Float) : float.toModel.unpack = (ofFloat float).unpacked := by
  have hbits : float.toModel.toBits = float.toBits := rfl
  have hbias : Format.binary64.exponentBias = 1023 := by decide
  have hexponent := toNat_unpackExponent float.toBits.toBitVec
  have hmantissa := toNat_unpackMantissa float.toBits.toBitVec
  rw [Float.Model.unpack, UnpackedFloat.unpack, hbits, ofFloat, signBit_eq, leadingBit_eq,
    exponentPatterns_eq]
  simp only [ofBitVec_unpackSign]
  by_cases hlast : float.toBits.toNat / 2 ^ 52 % 2 ^ 11 + 1 = 2 ^ 11
  · rw [if_pos ((unpackExponent_eq_last_iff _).mpr hlast), if_pos hlast]
    by_cases hzero : float.toBits.toNat % 2 ^ 52 = 0
    · rw [if_pos ((unpackMantissa_eq_zero_iff _).mpr hzero), if_pos hzero]
      rfl
    · rw [if_neg ((unpackMantissa_eq_zero_iff _).not.mpr hzero), if_neg hzero]
      rfl
  · rw [if_neg ((unpackExponent_eq_last_iff _).not.mpr hlast), if_neg hlast]
    by_cases hleast : float.toBits.toNat / 2 ^ 52 % 2 ^ 11 = 0
    · rw [if_pos ((unpackExponent_eq_zero_iff _).mpr hleast), if_pos hleast, unpacked]
      by_cases hzero : float.toBits.toNat % 2 ^ 52 = 0
      · rw [dif_pos ((unpackMantissa_eq_zero_iff _).mpr hzero), dif_pos hzero]
        rfl
      · rw [dif_neg ((unpackMantissa_eq_zero_iff _).not.mpr hzero), dif_neg hzero]
        simp only [UnpackedFloat.finite.injEq, hexponent, hmantissa, hbias]
        refine ⟨rfl, rfl, ?_⟩
        rw [UInt64.toNat_toBitVec, hleast]
        rfl
    · rw [if_neg ((unpackExponent_eq_zero_iff _).not.mpr hleast), if_neg hleast, unpacked,
        dif_neg (by omega)]
      simp only [UnpackedFloat.finite.injEq, hexponent, hbias]
      refine ⟨rfl, ?_, rfl⟩
      rw [BitVec.toNat_append, hmantissa,
        ← Nat.shiftLeft_add_eq_or_of_lt (Nat.mod_lt _ (by decide))]
      rfl

/-- Parts in the one form that doubles are taken apart into. -/
def Canonical : FloatParts → Prop
  | .nan | .infinite _ => True
  | .finite _ magnitude => BinaryFormat.double.Admits magnitude

theorem canonical_ofFloat (float : Float) : (ofFloat float).Canonical := by
  cases hparts : ofFloat float with
  | nan | infinite negative => trivial
  | finite negative magnitude => exact admits_of_ofFloat hparts

/-- A bit pattern that is no infinity and no missing number is kept. -/
theorem toBits_ofBits {bits : UInt64} (hbits : bits.toNat / 2 ^ 52 % 2 ^ 11 + 1 ≠ 2 ^ 11) :
    (Float.ofBits bits).toBits = bits := by
  have hvalid : Format.binary64.Valid bits.toBitVec :=
    ⟨fun hexponent => absurd ((unpackExponent_eq_last_iff _).mp hexponent) hbits⟩
  have hsame := Float.ofBits_toBits (Float.ofModel ⟨bits, hvalid⟩)
  exact congrArg Float.toBits hsame

/-- The exponent and the fraction in the bits of a magnitude. -/
theorem fields_magnitudeBits {magnitude : Magnitude}
    (hadmits : BinaryFormat.double.Admits magnitude) :
    ∃ pattern fraction, magnitudeBits magnitude = pattern * 2 ^ 52 + fraction ∧
      pattern + 1 < 2 ^ 11 ∧ fraction < 2 ^ 52 ∧
        (pattern = 0 ∧ magnitude = ⟨fraction, -1074⟩ ∨
          pattern ≠ 0 ∧ magnitude = ⟨2 ^ 52 + fraction, (pattern : ℤ) - 1075⟩) := by
  obtain ⟨significand, exponent⟩ := magnitude
  obtain ⟨hlimit, hfills, hmin, hmax⟩ := hadmits
  have hlimitValue : BinaryFormat.double.limit = 2 ^ 53 := by decide
  change significand < _ at hlimit
  change _ ≤ 2 * significand ∨ exponent = -1074 at hfills
  change -1074 ≤ exponent at hmin
  change exponent ≤ 971 at hmax
  rw [magnitudeBits, leadingBit_eq]
  rw [hlimitValue] at hlimit hfills
  by_cases hsmall : significand < 2 ^ 52
  · rw [if_pos hsmall]
    refine ⟨0, significand, by simp, by decide, hsmall, .inl ⟨rfl, ?_⟩⟩
    rw [hfills.resolve_left (by omega)]
  · rw [if_neg hsmall]
    refine ⟨(exponent + 1075).toNat, significand - 2 ^ 52, rfl, by omega, by omega,
      .inr ⟨by omega, ?_⟩⟩
    rw [Magnitude.mk.injEq]
    omega

/-- Putting a double together loses nothing. -/
theorem ofFloat_toFloat {parts : FloatParts} (hparts : parts.Canonical) :
    ofFloat parts.toFloat = parts := by
  cases parts with
  | nan => decide
  | infinite negative => cases negative <;> decide
  | finite negative magnitude =>
      obtain ⟨pattern, fraction, hbits, hpattern, hfraction, hmagnitude⟩ :=
        fields_magnitudeBits hparts
      let bits := (if negative then signBit else 0) + magnitudeBits magnitude
      have hfields : bits < 2 ^ 64 ∧ bits / 2 ^ 52 % 2 ^ 11 = pattern ∧ bits % 2 ^ 52 = fraction ∧
          (decide (2 ^ 63 ≤ bits) = negative) := by
        simp only [bits, hbits, signBit_eq]
        cases negative <;> simp <;> omega
      obtain ⟨hlt, hexponent, hrest, hsign⟩ := hfields
      have htoNat : (UInt64.ofNat bits).toNat = bits := UInt64.toNat_ofNat_of_lt' hlt
      change ofFloat (Float.ofBits (UInt64.ofNat bits)) = _
      rw [ofFloat, toBits_ofBits (by rw [htoNat]; omega), htoNat, signBit_eq, leadingBit_eq,
        exponentPatterns_eq, hexponent, hrest, hsign, if_neg (by omega)]
      rcases hmagnitude with ⟨hzero, rfl⟩ | ⟨hzero, rfl⟩
      · rw [if_pos hzero]
      · rw [if_neg hzero]

theorem ofModel_pack {parts : FloatParts} (hparts : parts.Canonical) :
    Float.ofModel (Float.Model.pack parts.unpacked) = parts.toFloat := by
  rw [← ofFloat_toFloat hparts, ← unpack_toModel, ofFloat_toFloat hparts]
  exact Float.ofBits_toBits parts.toFloat

/-- The parts of the double with the other sign. -/
def neg : FloatParts → FloatParts
  | .nan => .nan
  | .infinite negative => .infinite (!negative)
  | .finite negative magnitude => .finite (!negative) magnitude

/-- The parts of the double without its sign. -/
def abs : FloatParts → FloatParts
  | .nan => .nan
  | .infinite _ => .infinite false
  | .finite _ magnitude => .finite false magnitude

theorem unpacked_neg (parts : FloatParts) : parts.unpacked.neg = parts.neg.unpacked := by
  cases parts with
  | nan => rfl
  | infinite negative => cases negative <;> rfl
  | finite negative magnitude =>
      simp only [unpacked, neg]
      split <;> cases negative <;> rfl

theorem unpacked_abs (parts : FloatParts) : parts.unpacked.abs = parts.abs.unpacked := by
  cases parts with
  | nan => rfl
  | infinite negative => cases negative <;> rfl
  | finite negative magnitude =>
      simp only [unpacked, abs]
      split <;> rfl

theorem ofFloat_neg (float : Float) : ofFloat (-float) = (ofFloat float).neg := by
  have hcanonical : (ofFloat float).neg.Canonical := by
    have hfloat := canonical_ofFloat float
    cases hparts : ofFloat float <;> rw [hparts] at hfloat <;> exact hfloat
  rw [← ofFloat_toFloat hcanonical, ← ofModel_pack hcanonical, ← unpacked_neg, ← unpack_toModel]
  rfl

theorem ofFloat_abs (float : Float) : ofFloat float.abs = (ofFloat float).abs := by
  have hcanonical : (ofFloat float).abs.Canonical := by
    have hfloat := canonical_ofFloat float
    cases hparts : ofFloat float <;> rw [hparts] at hfloat <;> exact hfloat
  rw [← ofFloat_toFloat hcanonical, ← ofModel_pack hcanonical, ← unpacked_abs, ← unpack_toModel]
  rfl

theorem isInf_iff {float : Float} :
    float.isInf = true ↔ ∃ negative, ofFloat float = .infinite negative := by
  rw [Float.isInf, Float.Model.isInf, unpack_toModel]
  cases ofFloat float with
  | nan => simp [unpacked, isInf]
  | infinite negative => simp [unpacked, isInf]
  | finite negative magnitude =>
      simp only [unpacked]
      split <;> simp [isInf]

theorem isFinite_iff {float : Float} :
    float.isFinite = true ↔ ∃ negative magnitude, ofFloat float = .finite negative magnitude := by
  rw [Float.isFinite, Float.Model.isFinite, unpack_toModel]
  cases ofFloat float with
  | nan => simp [unpacked, isFinite]
  | infinite negative => simp [unpacked, isFinite]
  | finite negative magnitude =>
      simp only [unpacked]
      split <;> simp [isFinite]

/-- The opposite of a double is infinite only if the double is. -/
theorem isInf_of_isFinite {float : Float} (hfinite : float.isFinite = true) :
    float.isInf = false := by
  obtain ⟨negative, magnitude, hparts⟩ := isFinite_iff.mp hfinite
  rw [Bool.eq_false_iff, ne_eq, isInf_iff, hparts]
  rintro ⟨_, ⟨⟩⟩

theorem isInf_neg (float : Float) : (-float).isInf = float.isInf := by
  rw [Bool.eq_iff_iff, isInf_iff, isInf_iff, ofFloat_neg]
  cases ofFloat float <;> simp [neg]

end FloatParts

end Lindenmayer
