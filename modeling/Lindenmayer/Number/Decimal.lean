import Lindenmayer.Number.Binary

/-!
# Decimal numbers

A decimal number is a whole number of digits times a power of ten. Reading one rounds it to the
nearest double. Writing a double takes the fewest digits that read back as the same double; of two
such numbers with equally many digits it takes the nearer one, or the even one of two equally near.
-/

namespace Lindenmayer

/-- The number `digits * 10 ^ exponent` with a sign, which zero has too. -/
structure Decimal where
  negative : Bool
  digits : Nat
  exponent : Int
deriving DecidableEq

namespace Decimal

/-- The exact value without its sign. -/
def ratio (decimal : Decimal) : Ratio :=
  (Ratio.ofNat decimal.digits).scaleTen decimal.exponent

/-- The nearest double. The first tests spare powers of ten that decide the answer alone: a
positive number with an exponent above 400 is beyond the range, and one below `2 ^ -1100` rounds to
zero. -/
def toFloat (decimal : Decimal) : Float :=
  if decimal.digits = 0 then (FloatParts.finite decimal.negative ⟨0, -1074⟩).toFloat
  else if 400 < decimal.exponent then (FloatParts.infinite decimal.negative).toFloat
  else if decimal.digits.log2 + 1 + 3 * decimal.exponent < -1100 then
    (FloatParts.finite decimal.negative ⟨0, -1074⟩).toFloat
  else nearestFloat decimal.negative decimal.ratio

/-- A magnitude in decimal digits. A power of two below one is a power of five over one of ten. -/
def exact (negative : Bool) (magnitude : Magnitude) : Decimal :=
  match magnitude.exponent with
  | .ofNat exponent => ⟨negative, magnitude.significand * Nat.pow 2 exponent, 0⟩
  | .negSucc exponent =>
      ⟨negative, magnitude.significand * Nat.pow 5 (exponent + 1), .negSucc exponent⟩

/-- The two neighbours of a ratio among the multiples of `10 ^ exponent`, the nearer one first, and
the even one first if they are equally near. -/
def neighbours (negative : Bool) (ratio : Ratio) (exponent : Int) : List Decimal :=
  let scaled := ratio.scaleTen (-exponent)
  let below : Decimal := ⟨negative, scaled.floor, exponent⟩
  let above : Decimal := ⟨negative, scaled.floor + 1, exponent⟩
  if scaled.nearest = scaled.floor then [below, above] else [above, below]

/-- Whether a decimal number reads back as the given magnitude. -/
def readsBack (magnitude : Magnitude) (decimal : Decimal) : Bool :=
  BinaryFormat.double.round decimal.ratio = some magnitude

/-- Take digits away, one at a time from `count` on, as long as a number that is left reads back. -/
def shorten (negative : Bool) (magnitude : Magnitude) : Nat → Decimal → Decimal
  | 0, best => best
  | count + 1, best =>
      let exponent := magnitude.ratio.decade - count
      match (neighbours negative magnitude.ratio exponent).find? (readsBack magnitude) with
      | some shorter => shorten negative magnitude count shorter
      | none => best

/-- The decimal number with the fewest digits that reads back as a magnitude. Seventeen digits
always suffice. -/
def shortest (negative : Bool) (magnitude : Magnitude) : Decimal :=
  if magnitude.significand = 0 then ⟨negative, 0, 0⟩
  else shorten negative magnitude 17 (exact negative magnitude)

/-- The decimal number with `count` digits that is nearest to a magnitude; a tie goes to the even
digit. -/
def rounded (count : Nat) (negative : Bool) (magnitude : Magnitude) : Decimal :=
  if magnitude.significand = 0 then ⟨negative, 0, 0⟩
  else
    let exponent := magnitude.ratio.decade + 1 - count
    ⟨negative, (magnitude.ratio.scaleTen (-exponent)).nearest, exponent⟩

end Decimal

end Lindenmayer
