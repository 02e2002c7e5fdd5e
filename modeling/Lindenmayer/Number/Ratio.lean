/-!
# Non-negative ratios

Exact quotients of natural numbers, kept unreduced, with the two ways to make a whole number of one:
rounding down, and rounding to the nearest whole number with ties to the even neighbour.
-/

namespace Lindenmayer

/-- A rational number that is not negative. It need not be in lowest terms. -/
structure Ratio where
  numerator : Nat
  denominator : Nat
  denominator_pos : 0 < denominator := by decide

namespace Ratio

/-- A whole number as a ratio. -/
def ofNat (number : Nat) : Ratio :=
  ⟨number, 1, by decide⟩

/-- A ratio times a power of a positive base; the exponent may be negative. -/
def scale (ratio : Ratio) (base : Nat) (hbase : 0 < base) : Int → Ratio
  | .ofNat exponent =>
      ⟨ratio.numerator * Nat.pow base exponent, ratio.denominator, ratio.denominator_pos⟩
  | .negSucc exponent =>
      ⟨ratio.numerator, ratio.denominator * Nat.pow base (exponent + 1),
        Nat.mul_pos ratio.denominator_pos (Nat.pow_pos hbase)⟩

/-- A ratio times a power of two. -/
def scaleTwo (ratio : Ratio) (exponent : Int) : Ratio :=
  ratio.scale 2 (by decide) exponent

/-- A ratio times a power of ten. -/
def scaleTen (ratio : Ratio) (exponent : Int) : Ratio :=
  ratio.scale 10 (by decide) exponent

/-- The largest whole number that is not above a ratio. -/
def floor (ratio : Ratio) : Nat :=
  ratio.numerator / ratio.denominator

/-- The least whole number that is not below a ratio. -/
def ceil (ratio : Ratio) : Nat :=
  (ratio.numerator + ratio.denominator - 1) / ratio.denominator

/-- How twice the part after the whole number compares with one. -/
def compareHalf (ratio : Ratio) : Ordering :=
  compare (2 * (ratio.numerator % ratio.denominator)) ratio.denominator

/-- The nearest whole number; a tie goes to the even neighbour. -/
def nearest (ratio : Ratio) : Nat :=
  match ratio.compareHalf with
  | .lt => ratio.floor
  | .eq => ratio.floor + ratio.floor % 2
  | .gt => ratio.floor + 1

/-- The least whole number that is not below the inverse of a positive ratio. -/
def inverseCeil (ratio : Ratio) : Nat :=
  (ratio.denominator + ratio.numerator - 1) / ratio.numerator

/-- The exponent of the greatest power of ten that is not above a positive ratio. -/
def decade (ratio : Ratio) : Int :=
  if ratio.denominator ≤ ratio.numerator then (Nat.toDigits 10 ratio.floor).length - 1
  else -((Nat.toDigits 10 (ratio.inverseCeil - 1)).length : Int)

end Ratio

end Lindenmayer
