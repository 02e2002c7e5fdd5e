import Lindenmayer.Text.Quoted

/-!
# Faults of a drawing

What can stop the way from a start word to its segments and their bounds.
-/

namespace Lindenmayer

/-- Why a word cannot be grown, read or drawn. -/
inductive Fault where
  | negativeGenerations
  /-- A parameter has the form of a number, but a unit separator stands beside its digits. -/
  | unreadableNumber (text : Text)
  /-- The token at `index` closes a branch while none is open. -/
  | branchUnderflow (index : Nat)
  /-- A turn by an infinite angle has no direction. -/
  | infiniteAngle
  | unknownAxis (index : Int)
  | emptyDrawing
deriving DecidableEq

/-- What is told about a fault. -/
def Fault.message : Fault → Text
  | negativeGenerations => "iterations must be >= 0"
  | unreadableNumber text => "could not convert string to float: " ++ text.quoted
  | branchUnderflow index =>
      "branch pop ']' at token " ++ Text.ofNat index ++ " encountered with empty stack"
  | infiniteAngle => "math domain error"
  | unknownAxis index => "axis must be 0, 1 or 2; got " ++ Text.ofInt index
  | emptyDrawing => "No drawable geometry produced."

/-- The symbol that closes a missing branch. -/
def Fault.symbol? : Fault → Option Text
  | branchUnderflow _ => some "]"
  | negativeGenerations | unreadableNumber _ | infiniteAngle | unknownAxis _ | emptyDrawing => none

end Lindenmayer
