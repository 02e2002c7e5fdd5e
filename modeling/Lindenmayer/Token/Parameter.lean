import Lindenmayer.Fault
import Lindenmayer.Number.Numeral

/-!
# Parameters

A parameter is the number between the parentheses after a symbol. It is kept with the precision of
32 bits; a number beyond their range is no parameter.
-/

namespace Lindenmayer

/-- The nearest value of 32 bits, for a finite number that is not above the largest of them. -/
def singlePrecision? (value : Float) : Option Float :=
  if value.isFinite ∧ ¬ largestSingle < value.abs then some (nearestSingle value) else none

/-- The number between parentheses, and none if the text does not have the form of a number or is
out of range. Unit separators are blanks of the form, but the number cannot be read then. -/
def readParameter (text : Text) : Except Fault (Option Float) :=
  match Numeral.ofParameter? text with
  | none => .ok none
  | some numeral =>
      if text.any CodePoint.isUnitSeparator then .error (.unreadableNumber text)
      else .ok (singlePrecision? numeral.toDecimal.toFloat)

end Lindenmayer
