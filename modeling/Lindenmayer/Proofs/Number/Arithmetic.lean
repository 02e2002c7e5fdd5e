import Lindenmayer.Proofs.Number.Accuracy

/-!
# Arithmetic of doubles

Products, quotients, roots, and sums of numbers without a sign are rounded correctly: each operation
gives the double that is nearest to the exact result. A root that is not rational is rounded as a
rational number between the same powers of two.
-/

namespace Lindenmayer

open Float.Model (Format UnpackedFloat totalExponent)
open Float.Model.UnpackedFloat

namespace FloatParts

theorem sign_mul (negative other : Bool) :
    sign negative * sign other = sign (negative ^^ other) := by
  cases negative <;> cases other <;> rfl

theorem sign_div (negative other : Bool) :
    sign negative / sign other = sign (negative ^^ other) := by
  cases negative <;> cases other <;> rfl

end FloatParts

section Results

variable {first second float : Float} {left right : FloatParts}

theorem mul_eq_packed (hleft : FloatParts.ofFloat first = left)
    (hright : FloatParts.ofFloat second = right) :
    first * second = packed (UnpackedFloat.mul Format.binary64 left.unpacked right.unpacked) := by
  rw [← hleft, ← hright, ← FloatParts.unpack_toModel, ← FloatParts.unpack_toModel]
  rfl

theorem add_eq_packed (hleft : FloatParts.ofFloat first = left)
    (hright : FloatParts.ofFloat second = right) :
    first + second = packed (UnpackedFloat.add Format.binary64 left.unpacked right.unpacked) := by
  rw [← hleft, ← hright, ← FloatParts.unpack_toModel, ← FloatParts.unpack_toModel]
  rfl

theorem div_eq_packed (hleft : FloatParts.ofFloat first = left)
    (hright : FloatParts.ofFloat second = right) :
    first / second = packed (UnpackedFloat.div Format.binary64 left.unpacked right.unpacked) := by
  rw [← hleft, ← hright, ← FloatParts.unpack_toModel, ← FloatParts.unpack_toModel]
  rfl

theorem sqrt_eq_packed (hleft : FloatParts.ofFloat first = left) :
    first.sqrt = packed (UnpackedFloat.sqrt Format.binary64 left.unpacked) := by
  rw [← hleft, ← FloatParts.unpack_toModel]
  rfl

theorem packed_ofFloat (float : Float) : packed (FloatParts.ofFloat float).unpacked = float := by
  rw [packed_unpacked (FloatParts.canonical_ofFloat float), FloatParts.toFloat_ofFloat]

end Results

open BinaryFormat

section Exact

variable {float : Float} {negative : Bool} {value : ℚ}

/-- A double is what its value is rounded to. -/
theorem Denotes.rounds (hfloat : Denotes float negative value) :
    double.Rounds negative value float := by
  obtain ⟨magnitude, hparts, rfl⟩ := hfloat
  have hround := round_of_admits (FloatParts.admits_of_ofFloat hparts) magnitude.value_ratio
  have hrounds := rounds_nearestFloat negative magnitude.ratio
  rw [nearestFloat_of_round hparts hround, magnitude.value_ratio] at hrounds
  exact hrounds

theorem denotes_zero (negative : Bool) :
    Denotes (packed (.zero (FloatParts.sign negative))) negative 0 := by
  have hcanonical : (FloatParts.finite negative ⟨0, -1074⟩).Canonical :=
    ⟨by decide, .inr rfl, le_rfl, by decide⟩
  have hfloat := packed_unpacked hcanonical
  rw [FloatParts.unpacked_of_zero rfl] at hfloat
  rw [hfloat]
  exact ⟨_, FloatParts.ofFloat_toFloat hcanonical, FloatParts.value_of_zero rfl⟩

end Exact

section Product

variable {first second : Float} {negative other : Bool} {value size : ℚ}

/-- The product of two significands has all bits of the format, or it is below its range. -/
theorem full_mul {left right : Magnitude} (hleft : double.Admits left)
    (hright : double.Admits right) (hleftZero : left.significand ≠ 0)
    (hrightZero : right.significand ≠ 0) :
    2 ^ 52 ≤ left.significand * right.significand ∨ left.exponent + right.exponent ≤ -1074 := by
  have hleftFills := hleft.fills
  have hrightFills := hright.fills
  rw [limit_double] at hleftFills hrightFills
  have hleftLe := Nat.le_mul_of_pos_right left.significand (Nat.pos_of_ne_zero hrightZero)
  have hrightLe := Nat.le_mul_of_pos_left right.significand (Nat.pos_of_ne_zero hleftZero)
  rcases hleftFills with hfills | hleftMin
  · exact .inl (by omega)
  rcases hrightFills with hfills | hrightMin
  · exact .inl (by omega)
  · exact .inr (by rw [hleftMin, hrightMin]; decide)

theorem rounds_mul (hfirst : Denotes first negative value) (hsecond : Denotes second other size) :
    double.Rounds (negative ^^ other) (value * size) (first * second) := by
  obtain ⟨left, hleft, rfl⟩ := hfirst
  obtain ⟨right, hright, rfl⟩ := hsecond
  rw [mul_eq_packed hleft hright]
  by_cases hleftZero : left.significand = 0
  · have hzero : UnpackedFloat.mul Format.binary64 (.zero (FloatParts.sign negative))
        (FloatParts.finite other right).unpacked = .zero (FloatParts.sign (negative ^^ other)) := by
      rw [← FloatParts.sign_mul]
      exact FloatParts.unpacked_induction rfl (fun _ _ _ => rfl) right
    rw [FloatParts.unpacked_of_zero hleftZero, FloatParts.value_of_zero hleftZero, zero_mul, hzero]
    exact (denotes_zero _).rounds
  rw [FloatParts.unpacked_of_ne_zero hleftZero]
  by_cases hrightZero : right.significand = 0
  · rw [FloatParts.unpacked_of_zero hrightZero, FloatParts.value_of_zero hrightZero, mul_zero,
      UnpackedFloat.mul, FloatParts.sign_mul]
    exact (denotes_zero _).rounds
  · have hfull := full_mul (FloatParts.admits_of_ofFloat hleft)
      (FloatParts.admits_of_ofFloat hright) hleftZero hrightZero
    have hpos : 0 < left.significand * right.significand :=
      Nat.mul_pos (Nat.pos_of_ne_zero hleftZero) (Nat.pos_of_ne_zero hrightZero)
    have hvalue : left.value * right.value = ((left.significand * right.significand : ℕ) : ℚ) *
        2 ^ (left.exponent + right.exponent) := by
      rw [Magnitude.value, Magnitude.value, zpow_add₀ two_ne_zero]
      push_cast
      ring
    rw [FloatParts.unpacked_of_ne_zero hrightZero, UnpackedFloat.mul, FloatParts.sign_mul, hvalue]
    exact rounds_roundWithAccuracy _ (.whole _) (le_targetExponent hfull) (Nat.cast_pos.mpr hpos)

end Product

section Sum

variable {first second : Float} {value size : ℚ}

/-- A significand is widened to a lesser exponent without a change of its value. -/
theorem decreaseExponent_value {significand : ℕ} {exponent target : ℤ} (hle : target ≤ exponent) :
    ((decreaseExponent significand exponent target).1 : ℚ) * 2 ^ target =
      significand * 2 ^ exponent := by
  obtain ⟨count, rfl⟩ := Int.le.dest hle
  have hcount : (target + count - target).toNat = count := by omega
  have hvalue := shiftLeft_value significand count (target + count)
  rw [add_sub_cancel_right] at hvalue
  rw [decreaseExponent, hcount]
  exact hvalue

theorem normalize_natCast {mantissa : ℕ} (exponent : ℤ) (zeroSign : Sign) (hpos : 0 < mantissa) :
    UnpackedFloat.normalize Format.binary64 mantissa exponent zeroSign =
      UnpackedFloat.round Format.binary64 (FloatParts.sign false) mantissa exponent := by
  have hmore : compare (mantissa : ℤ) 0 = .gt := compare_gt_iff_gt.mpr (Nat.cast_pos.mpr hpos)
  rw [UnpackedFloat.normalize, hmore]
  rfl

theorem rounds_add_finite {left right : Magnitude} (hleft : left.significand ≠ 0)
    (hright : right.significand ≠ 0) :
    double.Rounds false (left.value + right.value) (packed (UnpackedFloat.add Format.binary64
      (FloatParts.finite false left).unpacked (FloatParts.finite false right).unpacked)) := by
  rw [FloatParts.unpacked_of_ne_zero hleft, FloatParts.unpacked_of_ne_zero hright,
    UnpackedFloat.add]
  have hleftValue := @decreaseExponent_value left.significand _ _
    (min_le_left left.exponent right.exponent)
  have hrightValue := @decreaseExponent_value right.significand _ _
    (min_le_right left.exponent right.exponent)
  generalize min left.exponent right.exponent = exponent at hleftValue hrightValue ⊢
  generalize decreaseExponent left.significand left.exponent exponent = wideLeft
    at hleftValue ⊢
  generalize decreaseExponent right.significand right.exponent exponent = wideRight
    at hrightValue ⊢
  have hvalue : left.value + right.value =
      ((wideLeft.1 + wideRight.1 : ℕ) : ℚ) * 2 ^ exponent := by
    rw [Magnitude.value, Magnitude.value, ← hleftValue, ← hrightValue]
    push_cast
    ring
  have hpos : 0 < wideLeft.1 + wideRight.1 := by
    have hsum : 0 < left.value + right.value :=
      add_pos (FloatParts.value_pos hleft) (FloatParts.value_pos hright)
    have hpower : (0 : ℚ) < 2 ^ exponent := by positivity
    rw [hvalue] at hsum
    exact_mod_cast pos_of_mul_pos_left hsum hpower.le
  change double.Rounds false _ (packed (UnpackedFloat.normalize Format.binary64
    ((wideLeft.1 + wideRight.1 : ℕ) : ℤ) exponent .positive))
  rw [hvalue, normalize_natCast exponent .positive hpos]
  exact rounds_round false hpos

theorem rounds_add (hfirst : Denotes first false value) (hsecond : Denotes second false size) :
    double.Rounds false (value + size) (first + second) := by
  have hself := hfirst.rounds
  have hother := hsecond.rounds
  obtain ⟨left, hleft, rfl⟩ := hfirst
  obtain ⟨right, hright, rfl⟩ := hsecond
  by_cases hleftZero : left.significand = 0
  · have hadd : UnpackedFloat.add Format.binary64 (.zero (FloatParts.sign false))
        (FloatParts.finite false right).unpacked = (FloatParts.finite false right).unpacked :=
      FloatParts.unpacked_induction rfl (fun _ _ _ => rfl) right
    rw [add_eq_packed hleft hright, FloatParts.value_of_zero hleftZero, zero_add,
      FloatParts.unpacked_of_zero hleftZero, hadd, ← hright, packed_ofFloat]
    exact hother
  by_cases hrightZero : right.significand = 0
  · have hadd : UnpackedFloat.add Format.binary64 (FloatParts.finite false left).unpacked
        (.zero (FloatParts.sign false)) = (FloatParts.finite false left).unpacked := by
      rw [FloatParts.unpacked_of_ne_zero hleftZero]
      rfl
    rw [add_eq_packed hleft hright, FloatParts.value_of_zero hrightZero, add_zero,
      FloatParts.unpacked_of_zero hrightZero, hadd, ← hleft, packed_ofFloat]
    exact hself
  · rw [add_eq_packed hleft hright]
    exact rounds_add_finite hleftZero hrightZero

end Sum

section Quotient

variable {first second : Float} {negative other : Bool} {value size : ℚ}

theorem accuracyOfFraction_eq {numerator denominator : ℕ} (hpos : 0 < denominator) :
    accuracyOfFraction numerator denominator = accuracyOf (numerator / denominator) := by
  have hcast : (0 : ℚ) < denominator := Nat.cast_pos.mpr hpos
  rw [accuracyOfFraction, accuracyOf]
  by_cases hzero : numerator = 0
  · rw [if_pos hzero, hzero, Nat.cast_zero, zero_div, if_pos rfl]
  · have horder : compare (2 * numerator) denominator =
        compare (2 * ((numerator : ℚ) / denominator)) 1 := by
      apply compare_eq_of_iff
      · rw [compare_lt_iff_lt, ← mul_div_assoc, div_lt_one hcast]
        exact_mod_cast Iff.rfl
      · rw [compare_gt_iff_gt, ← mul_div_assoc, one_lt_div hcast]
        exact_mod_cast Iff.rfl
    rw [if_neg hzero, if_neg (div_ne_zero (Nat.cast_ne_zero.mpr hzero) hcast.ne'), horder]

/-- A whole quotient with its remainder stands for the exact quotient. -/
theorem represents_div {numerator denominator : ℕ} (hpos : 0 < denominator) :
    Represents (.ofMantissaAndAccuracy (numerator / denominator)
      (accuracyOfFraction (numerator % denominator) denominator))
        ((numerator : ℚ) / denominator) := by
  have hcast : (0 : ℚ) < denominator := Nat.cast_pos.mpr hpos
  have hsplit : (numerator : ℚ) / denominator = (numerator / denominator : ℕ) +
      ((numerator % denominator : ℕ) : ℚ) / denominator := by
    have hdivision : (numerator : ℚ) =
        denominator * (numerator / denominator : ℕ) + (numerator % denominator : ℕ) := by
      exact_mod_cast (Nat.div_add_mod numerator denominator).symm
    rw [add_div' _ _ _ hcast.ne', mul_comm, ← hdivision]
  have hrest : ((numerator % denominator : ℕ) : ℚ) / denominator < 1 := by
    rw [div_lt_one hcast]
    exact_mod_cast Nat.mod_lt numerator hpos
  rw [hsplit, accuracyOfFraction_eq hpos]
  exact .ofMantissa (by positivity) hrest

/-- A significand that is widened has the bits of its length and those that are added. -/
theorem two_pow_le_widened {significand bits count : ℕ} (hzero : significand ≠ 0)
    (hlength : bits ≤ significand.log2 + count) : 2 ^ bits ≤ significand * 2 ^ count :=
  calc 2 ^ bits ≤ 2 ^ (significand.log2 + count) := Nat.pow_le_pow_right two_pos hlength
    _ = 2 ^ significand.log2 * 2 ^ count := pow_add _ _ _
    _ ≤ significand * 2 ^ count := Nat.mul_le_mul_right _ (Nat.log2_self_le hzero)

/-- The quotient that is found for two significands is the exact one. -/
theorem exists_divCore {left right : Magnitude} (hleft : left.significand ≠ 0)
    (hright : right.significand ≠ 0) :
    ∃ numerator exponent, divCore Format.binary64 left.significand left.exponent
        right.significand right.exponent =
          (numerator / right.significand, exponent,
            accuracyOfFraction (numerator % right.significand) right.significand) ∧
      (numerator : ℚ) / right.significand * 2 ^ exponent = left.value / right.value ∧
      (2 ^ 52 ≤ numerator / right.significand ∨ exponent ≤ -1074) := by
  rw [divCore, targetExponent_eq, totalExponent, totalExponent]
  generalize htarget : min (left.exponent - right.exponent)
    (max ((left.significand.log2 : ℤ) + 1 + left.exponent -
      (right.significand.log2 + 1 + right.exponent) - 53) (-1074)) = target
  obtain ⟨count, hcount⟩ : ∃ count : ℕ, left.exponent - right.exponent = target + count :=
    (Int.le.dest (htarget ▸ min_le_left _ _)).imp fun _ => Eq.symm
  have hshift : (left.exponent - right.exponent - target).toNat = count := by omega
  rw [hshift, Nat.shiftLeft_eq]
  refine ⟨_, target, rfl, ?_, ?_⟩
  · have hpower : (2 : ℚ) ^ left.exponent = 2 ^ count * 2 ^ target * 2 ^ right.exponent := by
      rw [← zpow_natCast, ← zpow_add₀ two_ne_zero, ← zpow_add₀ two_ne_zero]
      congr 1
      omega
    have hcast : (right.significand : ℚ) ≠ 0 := Nat.cast_ne_zero.mpr hright
    rw [Magnitude.value, Magnitude.value, hpower]
    push_cast
    field_simp
  · rcases le_or_gt target (-1074) with hmin | hlarge
    · exact .inr hmin
    left
    rw [Nat.le_div_iff_mul_le (Nat.pos_of_ne_zero hright)]
    -- The target leaves room for all bits of the quotient.
    have hlength : right.significand.log2 + 53 ≤ left.significand.log2 + count := by omega
    calc 2 ^ 52 * right.significand ≤ 2 ^ 52 * 2 ^ (right.significand.log2 + 1) :=
          Nat.mul_le_mul_left _ Nat.lt_log2_self.le
      _ = 2 ^ (right.significand.log2 + 53) := by
          rw [← pow_add]
          congr 1
          omega
      _ ≤ left.significand * 2 ^ count := two_pow_le_widened hleft hlength

theorem rounds_div (hfirst : Denotes first negative value) (hsecond : Denotes second other size)
    (hsize : size ≠ 0) : double.Rounds (negative ^^ other) (value / size) (first / second) := by
  obtain ⟨left, hleft, rfl⟩ := hfirst
  obtain ⟨right, hright, rfl⟩ := hsecond
  have hrightZero : right.significand ≠ 0 := fun hzero => hsize (FloatParts.value_of_zero hzero)
  rw [div_eq_packed hleft hright, FloatParts.unpacked_of_ne_zero hrightZero]
  by_cases hleftZero : left.significand = 0
  · rw [FloatParts.unpacked_of_zero hleftZero, FloatParts.value_of_zero hleftZero, zero_div,
      UnpackedFloat.div, FloatParts.sign_div]
    exact (denotes_zero _).rounds
  · obtain ⟨numerator, exponent, hcore, hvalue, hfull⟩ := exists_divCore hleftZero hrightZero
    have hpos : 0 < left.value / right.value :=
      div_pos (FloatParts.value_pos hleftZero) (FloatParts.value_pos hrightZero)
    rw [FloatParts.unpacked_of_ne_zero hleftZero, UnpackedFloat.div, hcore, FloatParts.sign_div,
      ← hvalue]
    rw [← hvalue] at hpos
    exact rounds_roundWithAccuracy _ (represents_div (Nat.pos_of_ne_zero hrightZero))
      (le_targetExponent hfull) (pos_of_mul_pos_left hpos (by positivity))

end Quotient

section Root

variable {first : Float} {value : ℚ}

/-- A whole root with what is known of the rest stands for a number between the same whole numbers
as the exact root. -/
theorem exists_represents_sqrt (number : ℕ) :
    ∃ root : ℚ, Represents (.ofMantissaAndAccuracy number.sqrt
      (if number - number.sqrt * number.sqrt = 0 then .exact
        else .inexact (if number - number.sqrt * number.sqrt ≤ number.sqrt then .lt else .gt)))
      root ∧ ∀ bound : ℕ, (bound : ℚ) ≤ root ↔ bound * bound ≤ number := by
  -- Any fraction with the right bits will do for the rest.
  have hsome : ∃ rest : ℚ, 0 ≤ rest ∧ rest < 1 ∧
      (if number - number.sqrt * number.sqrt = 0 then Accuracy.exact
        else .inexact (if number - number.sqrt * number.sqrt ≤ number.sqrt then .lt else .gt)) =
          accuracyOf rest := by
    split
    next => exact ⟨0, le_rfl, zero_lt_one, (accuracyOf_eq_exact_iff.mpr rfl).symm⟩
    next =>
      split
      next => exact ⟨1 / 4, by norm_num, by norm_num,
        (accuracyOf_of_compare (by norm_num) (compare_lt_iff_lt.mpr (by norm_num))).symm⟩
      next => exact ⟨3 / 4, by norm_num, by norm_num,
        (accuracyOf_of_compare (by norm_num) (compare_gt_iff_gt.mpr (by norm_num))).symm⟩
  obtain ⟨rest, hnonneg, hlt, haccuracy⟩ := hsome
  refine ⟨number.sqrt + rest, haccuracy ▸ .ofMantissa hnonneg hlt, fun bound => ?_⟩
  rw [← Nat.le_sqrt]
  constructor
  · intro hle
    have hless : (bound : ℚ) < number.sqrt + 1 := by linarith
    exact Nat.lt_add_one_iff.mp (by exact_mod_cast hless)
  · intro hle
    have hcast : (bound : ℚ) ≤ number.sqrt := Nat.cast_le.mpr hle
    linarith

/-- What holds of whole numbers below a root holds of all powers of two, at any exponent. -/
theorem two_zpow_le_root {number : ℕ} {root : ℚ} (hpos : 0 < number) (hone : 1 ≤ root)
    (hbounds : ∀ bound : ℕ, (bound : ℚ) ≤ root ↔ bound * bound ≤ number) (target power : ℤ) :
    2 ^ power ≤ root * 2 ^ target ↔ 2 ^ (2 * power) ≤ (number : ℚ) * 2 ^ (2 * target) := by
  have hleft : (2 : ℚ) ^ power = 2 ^ (power - target) * 2 ^ target := by
    rw [← zpow_add₀ two_ne_zero, sub_add_cancel]
  have hright : (2 : ℚ) ^ (2 * power) =
      (2 ^ (power - target) * 2 ^ (power - target)) * 2 ^ (2 * target) := by
    rw [← zpow_add₀ two_ne_zero, ← zpow_add₀ two_ne_zero]
    congr 1
    ring
  rw [hleft, hright, mul_le_mul_iff_left₀ (by positivity), mul_le_mul_iff_left₀ (by positivity)]
  rcases le_or_gt target power with hle | hlt
  · obtain ⟨bits, hbits⟩ := Int.le.dest hle
    have hpower : (2 : ℚ) ^ (power - target) = (2 ^ bits : ℕ) := by
      rw [← hbits, add_sub_cancel_left, zpow_natCast]
      push_cast
      rfl
    rw [hpower, hbounds]
    exact_mod_cast Iff.rfl
  · have hsmall : (2 : ℚ) ^ (power - target) ≤ 1 :=
      zpow_le_one_of_nonpos₀ one_le_two (by omega)
    have hnonneg : (0 : ℚ) ≤ 2 ^ (power - target) := by positivity
    have hnumber : (1 : ℚ) ≤ number := by exact_mod_cast hpos
    exact iff_of_true (hsmall.trans hone) ((mul_le_one₀ hsmall hnonneg hsmall).trans hnumber)

/-- The root that is found for a significand lies between the same powers of two as the exact
one. -/
theorem exists_sqrtCore {magnitude : Magnitude} (hzero : magnitude.significand ≠ 0) :
    ∃ mantissa exponent accuracy, ∃ root : ℚ,
      sqrtCore Format.binary64 magnitude.significand magnitude.exponent =
        (mantissa, exponent, accuracy) ∧
      Represents (.ofMantissaAndAccuracy mantissa accuracy) root ∧
      (2 ^ 52 ≤ mantissa ∨ exponent ≤ -1074) ∧ 0 < root ∧
      ∀ power : ℤ, 2 ^ power ≤ root * 2 ^ exponent ↔ 2 ^ (2 * power) ≤ magnitude.value := by
  rw [sqrtCore, targetExponent_eq, totalExponent]
  generalize htarget : min (magnitude.exponent.ediv 2)
    (max (((magnitude.significand.log2 : ℤ) + 1 + magnitude.exponent + 1).ediv 2 - 53) (-1074)) =
      target
  change min (magnitude.exponent / 2)
    (max (((magnitude.significand.log2 : ℤ) + 1 + magnitude.exponent + 1) / 2 - 53) (-1074)) =
      target at htarget
  obtain ⟨count, hcount⟩ : ∃ count : ℕ, magnitude.exponent = 2 * target + count :=
    (Int.le.dest (by omega : 2 * target ≤ magnitude.exponent)).imp fun _ => Eq.symm
  have hshift : (magnitude.exponent - 2 * target).toNat = count := by omega
  have hvalue : magnitude.value =
      ((magnitude.significand * 2 ^ count : ℕ) : ℚ) * 2 ^ (2 * target) := by
    rw [Magnitude.value, hcount, add_comm, zpow_add₀ two_ne_zero, zpow_natCast]
    push_cast
    ring
  rw [hshift, Nat.shiftLeft_eq]
  have hpos : 0 < magnitude.significand * 2 ^ count :=
    Nat.mul_pos (Nat.pos_of_ne_zero hzero) (by positivity)
  have hlong : -1074 < target → 2 ^ 104 ≤ magnitude.significand * 2 ^ count :=
    fun hlarge => two_pow_le_widened hzero (by omega)
  generalize magnitude.significand * 2 ^ count = number at hvalue hpos hlong ⊢
  obtain ⟨root, hroot, hbounds⟩ := exists_represents_sqrt number
  have hone : 1 ≤ root := by
    have hfirst := (hbounds 1).mpr hpos
    rwa [Nat.cast_one] at hfirst
  refine ⟨_, target, _, root, rfl, hroot, ?_, by linarith, fun power => ?_⟩
  · rcases le_or_gt target (-1074) with hmin | hlarge
    · exact .inr hmin
    · exact .inl (Nat.le_sqrt.mpr (hlong hlarge))
  · rw [hvalue]
    exact two_zpow_le_root hpos hone hbounds target power

theorem rounds_sqrt (hfirst : Denotes first false value) :
    ∃ root, (∀ power : ℤ, 2 ^ power ≤ root ↔ 2 ^ (2 * power) ≤ value) ∧
      double.Rounds false root first.sqrt := by
  obtain ⟨magnitude, hparts, rfl⟩ := hfirst
  rw [sqrt_eq_packed hparts]
  by_cases hzero : magnitude.significand = 0
  · refine ⟨0, fun power => ?_, ?_⟩
    · rw [FloatParts.value_of_zero hzero]
      exact iff_of_false (not_le.mpr (by positivity)) (not_le.mpr (by positivity))
    · rw [FloatParts.unpacked_of_zero hzero]
      exact (denotes_zero false).rounds
  · obtain ⟨mantissa, exponent, accuracy, root, hcore, hroot, hfull, hpos, hpowers⟩ :=
      exists_sqrtCore hzero
    refine ⟨root * 2 ^ exponent, hpowers, ?_⟩
    rw [FloatParts.unpacked_of_ne_zero hzero]
    change double.Rounds false _ (packed (match sqrtCore Format.binary64 magnitude.significand
      magnitude.exponent with
      | (mantissa, exponent, accuracy) =>
        roundWithAccuracy Format.binary64 .positive mantissa exponent accuracy))
    rw [hcore]
    exact rounds_roundWithAccuracy false hroot (le_targetExponent hfull) hpos

end Root

end Lindenmayer
