import Lindenmayer.Grammar.Generation
import Lindenmayer.Turtle.Machine

/-!
# From a start word to segments

A drawing grows a start word, reads the tokens of the last generation, and drives the turtle over
them.
-/

namespace Lindenmayer

variable {μ : Type}

/-- The segments of a grown word, with the counts that are told about it. -/
def drawWord (setup : Setup μ) (start : Text) (count : Int) (word : Text) :
    Report Fault (List (Segment μ)) := do
  let tokens ← Report.ofExcept (tokenize word)
  let segments ← interpret setup tokens
  Report.tell [.drawn start count word.length tokens.length segments.length]
  return segments

/-- The segments of the last of `count` generations of a start word. -/
def draw (setup : Setup μ) (rules : List Rule) (start : Text) (count : Int) :
    Report Fault (List (Segment μ)) := do
  let word ← grow rules start count
  drawWord setup start count word

end Lindenmayer
