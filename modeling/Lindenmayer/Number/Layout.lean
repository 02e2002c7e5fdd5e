import Lindenmayer.Number.Decimal
import Lindenmayer.Text.CodePoint

/-!
# Written numbers

How the digits of a number are laid out: in positional notation near one, with an exponent of at
least two digits elsewhere. The layouts differ in where positional notation ends, in what closes a
whole number, and in the names of the values that are no numbers.
-/

namespace Lindenmayer

/-- The choices of a number format. Positional notation is used from the decade `-4` to the one
below `positionalBelow`. -/
structure Layout where
  positionalBelow : Int
  wholeEnding : Text
  nan : Text
  infinity : Text

namespace Layout

/-- The layout of numbers in messages. -/
def plain : Layout := ⟨16, ".0", "nan", "inf"⟩

/-- The layout of numbers in documents. -/
def document : Layout := ⟨16, ".0", "NaN", "Infinity"⟩

/-- The layout of numbers in summaries, with few digits. -/
def brief : Layout := ⟨4, "", "nan", "inf"⟩

/-- A minus before a negative number. -/
def sign (negative : Bool) : Text :=
  if negative then "-" else ""

/-- Digits whose first one stands for `10 ^ decade`, with a point. -/
def positional (wholeEnding digits : Text) (decade : Int) : Text :=
  match decade with
  | .negSucc zeros => "0." ++ List.replicate zeros (CodePoint.ofChar '0') ++ digits
  | .ofNat decade =>
      let whole := digits.take (decade + 1)
      let fraction := digits.drop (decade + 1)
      whole ++ List.replicate (decade + 1 - whole.length) (CodePoint.ofChar '0') ++
        if fraction.isEmpty then wholeEnding else "." ++ fraction

/-- Digits with a point after the first one and the exponent `decade`. -/
def exponential (digits : Text) (decade : Int) : Text :=
  let fraction := digits.drop 1
  let point : Text := if fraction.isEmpty then "" else "."
  let exponentSign : Text := if decade < 0 then "-" else "+"
  let exponent := Text.ofNat decade.natAbs
  let padding : Text := if exponent.length < 2 then "0" else ""
  digits.take 1 ++ point ++ fraction ++ "e" ++ exponentSign ++ padding ++ exponent

/-- The digits of a number without the zeros at its end. -/
def significantDigits (digits : Nat) : Text :=
  ((Text.ofNat digits).reverse.dropWhile (· = CodePoint.ofChar '0')).reverse

/-- The exponent of the first digit of a decimal number. -/
def firstDecade (decimal : Decimal) : Int :=
  if decimal.digits = 0 then 0
  else decimal.exponent + (Text.ofNat decimal.digits).length - 1

/-- A decimal number in a layout. -/
def write (layout : Layout) (decimal : Decimal) : Text :=
  let decade := firstDecade decimal
  let digits := significantDigits decimal.digits
  sign decimal.negative ++
    if -4 ≤ decade ∧ decade < layout.positionalBelow then
      positional layout.wholeEnding digits decade
    else exponential digits decade

/-- A double in a layout, with the digits that `toDecimal` chooses for a finite one. -/
def writeFloat (layout : Layout) (toDecimal : Bool → Magnitude → Decimal) (float : Float) : Text :=
  match FloatParts.ofFloat float with
  | .nan => layout.nan
  | .infinite negative => sign negative ++ layout.infinity
  | .finite negative magnitude => layout.write (toDecimal negative magnitude)

/-- A double in a layout, with the fewest digits that read back as the same one. -/
def writeShortest (layout : Layout) (float : Float) : Text :=
  layout.writeFloat Decimal.shortest float

/-- A double in at most four digits. -/
def writeBrief (float : Float) : Text :=
  brief.writeFloat (Decimal.rounded 4) float

/-- A magnitude with a fixed number of places after the point; a tie goes to the even digit. -/
def writeFixed (places : Nat) (negative : Bool) (magnitude : Magnitude) : Text :=
  let digits := Text.ofNat (magnitude.ratio.scaleTen places).nearest
  let padded := List.replicate (places + 1 - digits.length) (CodePoint.ofChar '0') ++ digits
  let whole := padded.length - places
  sign negative ++ padded.take whole ++ "." ++ padded.drop whole

/-- A magnitude with a fixed number of places after the point and an exponent; a tie goes to the
even digit. -/
def writeExponential (places : Nat) (negative : Bool) (magnitude : Magnitude) : Text :=
  let decimal := Decimal.rounded (places + 1) negative magnitude
  let digits := (Text.ofNat decimal.digits).take (places + 1)
  let padded := digits ++ List.replicate (places + 1 - digits.length) (CodePoint.ofChar '0')
  sign negative ++ exponential padded (firstDecade decimal)

end Layout

end Lindenmayer
