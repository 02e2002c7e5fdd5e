import Lindenmayer.Number.Ratio

/-!
# Binary floating point

The finite values of a floating-point format as exact numbers, and rounding of exact numbers to a
format: to the nearest value, with ties to the even significand. Doubles are taken apart into sign,
significand and exponent, and put together from them.
-/

namespace Lindenmayer

/-- A magnitude `significand * 2 ^ exponent`. -/
structure Magnitude where
  significand : Nat
  exponent : Int
deriving DecidableEq

/-- The exact value of a magnitude. -/
def Magnitude.ratio (magnitude : Magnitude) : Ratio :=
  (Ratio.ofNat magnitude.significand).scaleTwo magnitude.exponent

/-- A floating-point format. Its finite magnitudes have a significand below `2 ^ precision` and an
exponent between the two bounds. -/
structure BinaryFormat where
  precision : Nat
  minExponent : Int
  maxExponent : Int

namespace BinaryFormat

/-- The format of 64 bits. -/
def double : BinaryFormat := ⟨53, -1074, 971⟩

/-- The format of 32 bits. -/
def single : BinaryFormat := ⟨24, -149, 104⟩

/-- The bound below which the significands of a format lie: `2 ^ precision`. -/
def limit (format : BinaryFormat) : Nat :=
  Nat.pow 2 format.precision

/-- The largest finite magnitude of a format. -/
def largest (format : BinaryFormat) : Magnitude :=
  ⟨format.limit - 1, format.maxExponent⟩

/-- The exponent at which a positive ratio fills the precision of the format, or the least exponent
if the ratio is too small for that. -/
def exponentFor (format : BinaryFormat) (ratio : Ratio) : Int :=
  let guess : Int := ratio.numerator.log2 - ratio.denominator.log2 - format.precision
  -- The quotient has as many digits as the guess says, or one more.
  let exact :=
    if format.limit ≤ (ratio.scaleTwo (-guess)).floor then guess + 1 else guess
  max exact format.minExponent

/-- The nearest magnitude of the format, and none for a ratio beyond its range. -/
def round (format : BinaryFormat) (ratio : Ratio) : Option Magnitude :=
  if ratio.numerator = 0 then some ⟨0, format.minExponent⟩
  else
    let exponent := format.exponentFor ratio
    let significand := (ratio.scaleTwo (-exponent)).nearest
    -- Rounding up may reach the limit, where the next exponent begins.
    let magnitude : Magnitude :=
      if significand = format.limit then ⟨format.limit / 2, exponent + 1⟩
      else ⟨significand, exponent⟩
    if magnitude.exponent ≤ format.maxExponent then some magnitude else none

end BinaryFormat

/-- A double taken apart. The magnitude of a finite one has the largest significand that the format
admits, so that each double has one form. -/
inductive FloatParts where
  | nan
  | infinite (negative : Bool)
  | finite (negative : Bool) (magnitude : Magnitude)
deriving DecidableEq

namespace FloatParts

/-- The bit of the sign: `2 ^ 63`. -/
def signBit : Nat := 0x8000000000000000

/-- The bit above the fraction: `2 ^ 52`. -/
def leadingBit : Nat := 0x10000000000000

/-- The number of bit patterns of the exponent. The last one is that of infinity and of values that
are no numbers. -/
def exponentPatterns : Nat := 0x800

/-- The parts of a double, from its bits. -/
def ofFloat (float : Float) : FloatParts :=
  let bits := float.toBits.toNat
  let negative := signBit ≤ bits
  let exponent : Nat := bits / leadingBit % exponentPatterns
  let fraction := bits % leadingBit
  if exponent + 1 = exponentPatterns then
    if fraction = 0 then .infinite negative else .nan
  else if exponent = 0 then .finite negative ⟨fraction, -1074⟩
  else .finite negative ⟨leadingBit + fraction, (exponent : Int) - 1075⟩

/-- The bit pattern without its sign of a magnitude in the form that `ofFloat` gives. -/
def magnitudeBits (magnitude : Magnitude) : Nat :=
  if magnitude.significand < leadingBit then magnitude.significand
  else (magnitude.exponent + 1075).toNat * leadingBit + (magnitude.significand - leadingBit)

/-- The double with the given parts. -/
def toFloat : FloatParts → Float
  | .nan => Float.ofBits 0x7FF8000000000000
  | .infinite negative => Float.ofBits (if negative then 0xFFF0000000000000 else 0x7FF0000000000000)
  | .finite negative magnitude =>
      Float.ofBits (UInt64.ofNat ((if negative then signBit else 0) + magnitudeBits magnitude))

end FloatParts

/-- The double nearest to a ratio with a sign; beyond the range it is infinite. -/
def nearestFloat (negative : Bool) (ratio : Ratio) : Float :=
  match BinaryFormat.double.round ratio with
  | some magnitude => (FloatParts.finite negative magnitude).toFloat
  | none => (FloatParts.infinite negative).toFloat

/-- The double nearest to an integer, and none beyond the range. -/
def floatOfInt? (number : Int) : Option Float :=
  (BinaryFormat.double.round (Ratio.ofNat number.natAbs)).map fun magnitude =>
    (FloatParts.finite (number < 0) magnitude).toFloat

/-- The largest finite value of 32 bits. -/
def largestSingle : Float :=
  nearestFloat false BinaryFormat.single.largest.ratio

/-- The value of 32 bits nearest to a double; beyond the range it is infinite. -/
def nearestSingle (float : Float) : Float :=
  match FloatParts.ofFloat float with
  | .finite negative magnitude =>
      match BinaryFormat.single.round magnitude.ratio with
      | some rounded => nearestFloat negative rounded.ratio
      | none => (FloatParts.infinite negative).toFloat
  | _ => float

/-- The largest integer that is not above a double; only finite doubles have one. -/
def floorFloat? (float : Float) : Option Int :=
  match FloatParts.ofFloat float with
  | .finite false magnitude => some magnitude.ratio.floor
  | .finite true magnitude => some (-magnitude.ratio.ceil)
  | _ => none

end Lindenmayer
