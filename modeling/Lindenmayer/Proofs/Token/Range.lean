import Lindenmayer.Proofs.Number.Shortest
import Lindenmayer.Proofs.Number.TwoRoundings
import Lindenmayer.Proofs.Token.Parameters

/-!
# The range of parameters

A parameter is kept up to the largest number of 32 bits, and it is dropped where rounding overflows.
What is written for a number below the largest one is read as this number, unless the double of it
lies half way to a neighbour.
-/

namespace Lindenmayer

open BinaryFormat

variable {text : Text} {numeral : Numeral}

/-- How a parameter with a given double is kept with 32 bits. -/
structure KeptInRange (text : Text) (numeral : Numeral) (float : Float) : Prop where
  /-- The double is the number of the parameter, rounded correctly. -/
  double : double.Rounds numeral.negative numeral.size float
  readable : ∃ parameter, readParameter text = .ok parameter
  /-- A parameter is dropped if it is infinite with 32 bits, be it as a double already. -/
  dropped : (∀ size, Denotes float numeral.negative size → single.Overflows size) →
    readParameter text = .ok none
  /-- It is kept if its double is not above the largest number of 32 bits. -/
  kept : ∀ size, Denotes float numeral.negative size → size ≤ single.largest.value →
    ∃ number, readParameter text = .ok (some number)
  /-- What is kept is the double, rounded correctly to a number of 32 bits. -/
  rounded : ∀ number, readParameter text = .ok (some number) → number.isFinite = true ∧
    ∃ size, Denotes float numeral.negative size ∧ single.Rounds numeral.negative size number
  /-- What is rounded to a number of 32 bits at once is read as this number, or else the double lies
  half way between it and a number with an even significand, which is read instead. -/
  written : ∀ magnitude, single.RoundsTo numeral.size magnitude →
    magnitude.value < single.largest.value →
      ∃ number size, readParameter text = .ok (some number) ∧
        Denotes float numeral.negative size ∧
          (Denotes number numeral.negative magnitude.value ∨
            ∃ other, single.Admits other ∧ other.significand % 2 = 0 ∧
              other.value ≠ magnitude.value ∧ 2 * size = magnitude.value + other.value ∧
                Denotes number numeral.negative other.value)

/-- A number below the largest one of 32 bits has a double that is not above it. -/
theorem exists_double_le_largest {magnitude : Magnitude}
    (hdirect : single.RoundsTo numeral.size magnitude)
    (hlt : magnitude.value < single.largest.value) :
    ∃ wide, double.IsNearest numeral.size wide ∧ wide.value ≤ single.largest.value ∧
      Denotes numeral.toDecimal.toFloat numeral.negative wide.value := by
  obtain ⟨hbelow, hfirst⟩ := double_refines_single.le_largest (by decide) (by decide)
    hdirect.nearest hlt
  have hlargest : single.Admits single.largest := admits_largest (by decide) (by decide)
  obtain ⟨wide, hwide, hvalue⟩ := double_refines_single.exists_wide hlargest
  have hrange : ¬ double.Overflows numeral.size :=
    not_overflows (hbelow.le.trans (hvalue.symm.trans_le hwide.value_le_largest))
  obtain ⟨first, hrounds, hfloat⟩ := numeral.rounds.exists_roundsTo hrange
  exact ⟨first, hrounds.nearest, hfirst first hrounds.nearest, hfloat⟩

/-- A parameter that can be read is kept in the range of 32 bits. -/
theorem parameter_kept_in_range (hform : IsParameter text numeral)
    (hreadable : ∀ point ∈ text, ¬ (0x1c ≤ point.value ∧ point.value ≤ 0x1f)) :
    KeptInRange text numeral numeral.toDecimal.toFloat := by
  have hread : readParameter text = .ok (singlePrecision? numeral.toDecimal.toFloat) :=
    readParameter_of_isParameter hform fun point hpoint =>
      Bool.eq_false_iff.mpr (CodePoint.isUnitSeparator_iff.not.mpr (hreadable point hpoint))
  have hkept : ∀ size, Denotes numeral.toDecimal.toFloat numeral.negative size →
      size ≤ single.largest.value →
        readParameter text = .ok (some (nearestSingle numeral.toDecimal.toFloat)) := by
    intro size hfloat hle
    rw [hread, singlePrecision?_eq_some_iff.mpr ⟨_, size, hfloat, hle, rfl⟩]
  refine ⟨numeral.rounds, ⟨_, hread⟩, fun hover => ?_, fun size hfloat hle =>
    ⟨_, hkept size hfloat hle⟩, fun number hnumber => ?_, fun magnitude hdirect hlt => ?_⟩
  · rw [hread]
    congr 1
    rw [Option.eq_none_iff_forall_ne_some]
    intro number hnumber
    rw [hnumber] at hread
    obtain ⟨size, hfloat, hle, -⟩ := rounds_of_readParameter hform hread
    exact not_overflows hle (hover size hfloat)
  · obtain ⟨size, hfloat, hle, hrounds⟩ := rounds_of_readParameter hform hnumber
    obtain ⟨magnitude, -, hsingle⟩ := hrounds.exists_roundsTo (not_overflows hle)
    exact ⟨hsingle.isFinite, size, hfloat, hrounds⟩
  · obtain ⟨wide, hfirst, hle, hfloat⟩ := exists_double_le_largest hdirect hlt
    obtain ⟨rounded, hsecond, hsingle⟩ :=
      (rounds_nearestSingle hfloat).exists_roundsTo (not_overflows hle)
    refine ⟨_, wide.value, hkept _ hfloat hle, hfloat, ?_⟩
    rcases double_refines_single.rounded_twice (by decide) hfirst hsecond.nearest
      hdirect.nearest with hsame | ⟨hne, hmiddle, heven⟩
    · exact .inl (hsame ▸ hsingle)
    · exact .inr ⟨rounded, hsecond.nearest.admits, heven, hne, hmiddle, hsingle⟩

/-- A number right below the largest one of 32 bits. -/
theorem lastParameter_kept_in_range :
    IsParameter "3.4028234e38" ⟨false, [3], [4, 0, 2, 8, 2, 3, 4], 38⟩ ∧
      KeptInRange "3.4028234e38" ⟨false, [3], [4, 0, 2, 8, 2, 3, 4], 38⟩
        (Decimal.toFloat ⟨false, 34028234, 31⟩) :=
  have hform : IsParameter "3.4028234e38" ⟨false, [3], [4, 0, 2, 8, 2, 3, 4], 38⟩ :=
    Numeral.ofParameter?_eq_some_iff.mp (by decide)
  ⟨hform, parameter_kept_in_range hform (by decide)⟩

/-- The shortest form of the largest number. -/
def largestNumeral : Numeral :=
  ⟨false, [3], [4, 0, 2, 8, 2, 3, 5], 38⟩

/-- The shortest form of a number whose double lies half way to the next number. -/
def halfwayNumeral : Numeral :=
  ⟨false, [7], [0, 3, 8, 5, 3, 1], -26⟩

theorem isShortest_largest : IsShortest single single.largest largestNumeral.toDecimal := by
  have hlargest : single.largest = ⟨16777215, 104⟩ := by decide
  have hdecimal : largestNumeral.toDecimal = ⟨false, 34028235, 31⟩ := by decide
  rw [hlargest, hdecimal]
  refine isShortest_of_round 7 3402823 (by decide) (by decide) (by decide)
    (by decide) (by decide) (by decide) ?_ ?_ ?_ ?_ <;> norm_num

theorem isShortest_halfway : IsShortest single ⟨11420669, -107⟩ halfwayNumeral.toDecimal := by
  have hdecimal : halfwayNumeral.toDecimal = ⟨false, 7038531, -32⟩ := by decide
  rw [hdecimal]
  refine isShortest_of_round 6 703853 (by decide) (by decide) (by decide)
    (by decide) (by decide) (by decide) ?_ ?_ ?_ ?_ <;> norm_num

/-- Two shortest forms are not read as the numbers they stand for. The double of one lies between
the largest number and the values that overflow, and it is dropped. The double of the other lies
half way to the next number, which is read instead. -/
theorem shortest_forms_misread :
    (IsParameter "3.4028235e38" largestNumeral ∧
      IsShortest single single.largest largestNumeral.toDecimal ∧
      (∃ size, Denotes largestNumeral.toDecimal.toFloat false size ∧ ¬ single.Overflows size) ∧
      readParameter "3.4028235e38" = .ok none) ∧
    IsParameter "7.038531e-26" halfwayNumeral ∧
      IsShortest single ⟨11420669, -107⟩ halfwayNumeral.toDecimal ∧
      ∃ number, readParameter "7.038531e-26" = .ok (some number) ∧
        Denotes number false (Magnitude.value ⟨11420670, -107⟩) := by
  have hlargest : IsParameter "3.4028235e38" largestNumeral :=
    Numeral.ofParameter?_eq_some_iff.mp (by decide)
  have hhalfway : IsParameter "7.038531e-26" halfwayNumeral :=
    Numeral.ofParameter?_eq_some_iff.mp (by decide)
  have hlargestFloat : Denotes largestNumeral.toDecimal.toFloat false
      (Magnitude.value ⟨9007198806847480, 75⟩) := ⟨_, by decide, rfl⟩
  have hhalfwayFloat : Denotes halfwayNumeral.toDecimal.toFloat false
      (Magnitude.value ⟨6131425250115584, -136⟩) := ⟨_, by decide, rfl⟩
  have hvalue : single.largest.value = 16777215 * 2 ^ 104 := rfl
  refine ⟨⟨hlargest, isShortest_largest, ⟨_, hlargestFloat, ?_⟩, ?_⟩, hhalfway,
    isShortest_halfway, nearestSingle halfwayNumeral.toDecimal.toFloat, ?_, ?_⟩
  · rw [Overflows, not_le, hvalue]
    change Magnitude.value _ < _ + (2 : ℚ) ^ (104 : ℤ) / 2
    norm_num [Magnitude.value]
  · rw [readParameter_of_isParameter hlargest (by decide), singlePrecision?_eq_none hlargestFloat]
    rw [hvalue]
    norm_num [Magnitude.value]
  · rw [readParameter_of_isParameter hhalfway (by decide),
      singlePrecision?_eq_some_iff.mpr ⟨_, _, hhalfwayFloat, ?_, rfl⟩]
    rw [hvalue]
    norm_num [Magnitude.value]
  · refine ⟨⟨6131425518551040, -136⟩, by decide, ?_⟩
    norm_num [Magnitude.value]

end Lindenmayer
