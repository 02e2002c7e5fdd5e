import Lindenmayer.Proofs.Number.Conversion
import Lindenmayer.Proofs.Token.Form
import Lindenmayer.Proofs.Token.Reading

/-!
# Parameters as numbers

A parameter denotes the exact number that its digits, its point and its exponent tell. What is read
is this number rounded twice, to a double first and then to 32 bits.
-/

namespace Lindenmayer

open BinaryFormat

variable {text : Text} {numeral : Numeral}

/-- The number that a numeral denotes, without its sign. -/
def Numeral.size (numeral : Numeral) : ℚ :=
  (digitsValue numeral.whole + digitsValue numeral.fraction / 10 ^ numeral.fraction.length) *
    10 ^ numeral.exponent

theorem Numeral.value_toDecimal (numeral : Numeral) :
    numeral.toDecimal.ratio.value = numeral.size := by
  obtain ⟨negative, whole, fraction, exponent⟩ := numeral
  have hpower : (10 : ℚ) ^ fraction.length ≠ 0 := by positivity
  rw [Decimal.value_ratio, toDecimal, size, digitsValue_append, zpow_sub₀ (by norm_num),
    zpow_natCast]
  push_cast
  field_simp

/-- The double of a numeral is rounded correctly. -/
theorem Numeral.rounds (numeral : Numeral) :
    double.Rounds numeral.negative numeral.size numeral.toDecimal.toFloat := by
  rw [← numeral.value_toDecimal]
  exact rounds_toFloat numeral.toDecimal

theorem readParameter_of_isParameter (hform : IsParameter text numeral)
    (hreadable : ∀ point ∈ text, point.isUnitSeparator = false) :
    readParameter text = .ok (singlePrecision? numeral.toDecimal.toFloat) := by
  rw [readParameter, Numeral.ofParameter?_eq_some_iff.mpr hform]
  refine if_neg fun hseparator => ?_
  obtain ⟨point, hpoint, hunit⟩ := List.any_eq_true.mp hseparator
  exact Bool.eq_false_iff.mp (hreadable point hpoint) hunit

theorem readParameter_eq_some {number : Float} (hform : IsParameter text numeral)
    (hread : readParameter text = .ok (some number)) :
    singlePrecision? numeral.toDecimal.toFloat = some number := by
  rw [readParameter, Numeral.ofParameter?_eq_some_iff.mpr hform] at hread
  dsimp only at hread
  split at hread
  next => cases hread
  next => exact Except.ok.inj hread

/-- A parameter that is read is its number rounded to a double, and this rounded to 32 bits. -/
theorem rounds_of_readParameter {number : Float} (hform : IsParameter text numeral)
    (hread : readParameter text = .ok (some number)) :
    ∃ size, Denotes numeral.toDecimal.toFloat numeral.negative size ∧
      size ≤ single.largest.value ∧ single.Rounds numeral.negative size number := by
  have hkept := readParameter_eq_some hform hread
  obtain ⟨negative, size, hfloat, hle, rfl⟩ := singlePrecision?_eq_some_iff.mp hkept
  obtain ⟨rfl, -⟩ := numeral.rounds.of_denotes hfloat
  exact ⟨size, hfloat, hle, rounds_nearestSingle hfloat⟩

theorem CodePoint.isUnitSeparator_iff {point : CodePoint} :
    point.isUnitSeparator = true ↔ 0x1c ≤ point.value ∧ point.value ≤ 0x1f := by
  rw [isUnitSeparator, Bool.and_eq_true, decide_eq_true_iff, decide_eq_true_iff]

/-- How a text between parentheses is read. -/
structure ReadByForm (text : Text) : Prop where
  /-- Without the form of a parameter there is none. -/
  malformed : (∀ numeral, ¬ IsParameter text numeral) → readParameter text = .ok none
  /-- The parts of a parameter are unique. -/
  unambiguous : ∀ first second, IsParameter text first → IsParameter text second → first = second
  /-- A parameter cannot be read exactly if there is a unit separator in it. -/
  unreadable : ∀ numeral, IsParameter text numeral →
    ((∃ fault, readParameter text = .error fault) ↔
      ∃ point ∈ text, 0x1c ≤ point.value ∧ point.value ≤ 0x1f)
  fault : ∀ fault, readParameter text = .error fault → fault = .unreadableNumber text
  /-- A number that is read is the exact one rounded to a double and then to 32 bits. -/
  rounded : ∀ numeral number, IsParameter text numeral → readParameter text = .ok (some number) →
    ∃ float size, double.Rounds numeral.negative numeral.size float ∧
      Denotes float numeral.negative size ∧ single.Rounds numeral.negative size number
  /-- It is finite and not above the largest number of 32 bits. -/
  finite : ∀ numeral number, IsParameter text numeral →
    readParameter text = .ok (some number) → number.isFinite = true ∧
      ∃ kept, Denotes number numeral.negative kept ∧ kept ≤ single.largest.value

/-- Every text between parentheses is read by its form. -/
theorem parameter_read_by_form (text : Text) : ReadByForm text := by
  refine ⟨fun hform => ?_, fun first second hfirst hsecond => ?_, fun numeral hform => ?_,
    fun fault hfault => (readParameter_eq_error.mp hfault).1, fun numeral number hform hread => ?_,
    fun numeral number hform hread => ?_⟩
  · have hnone : Numeral.ofParameter? text = none := by
      rw [Option.eq_none_iff_forall_ne_some]
      exact fun numeral hnumeral => hform numeral (Numeral.ofParameter?_eq_some_iff.mp hnumeral)
    rw [readParameter, hnone]
  · rw [← Numeral.ofParameter?_eq_some_iff] at hfirst hsecond
    exact Option.some.inj (hfirst.symm.trans hsecond)
  · rw [← Numeral.ofParameter?_eq_some_iff] at hform
    simp only [readParameter_eq_error, hform, Option.isSome_some, true_and,
      CodePoint.isUnitSeparator_iff, exists_eq_left]
  · obtain ⟨size, hfloat, -, hnumber⟩ := rounds_of_readParameter hform hread
    exact ⟨_, size, numeral.rounds, hfloat, hnumber⟩
  · obtain ⟨size, -, hle, hnumber⟩ := rounds_of_readParameter hform hread
    obtain ⟨magnitude, hrounds, hkept⟩ := hnumber.exists_roundsTo (not_overflows hle)
    exact ⟨hkept.isFinite, magnitude.value, hkept, hrounds.nearest.admits.value_le_largest⟩

/-- Digits of another script, a point and an exponent between two kinds of blanks. -/
example :
    Numeral.ofParameter? "\u00a0-٣.5E+1 " = some ⟨true, [3], [5], 1⟩ ∧
      Numeral.ofParameter? "3 .5" = none ∧ Numeral.ofParameter? "." = none ∧
        Numeral.ofParameter? "1e" = none := by
  decide

end Lindenmayer
