import Lindenmayer.Sampling.Source
import Lindenmayer.Text.CodePoint

/-!
# Random words

A random word is put together from parts: steps forward, turns, and branches that open with a
thinner and longer turtle. Branches are at most three deep, every branch is closed, and every word
has a step forward.
-/

namespace Lindenmayer

/-- A part of a random word. -/
inductive WordPart where
  | openBranch
  | closeBranch
  | forward
  | turn (symbol : CodePoint)
deriving DecidableEq

namespace WordPart

/-- The symbols of a part. A branch opens thinner and longer. -/
def text : WordPart → Text
  | .openBranch => "[!\""
  | .closeBranch => "]"
  | .forward => "F"
  | .turn symbol => [symbol]

/-- The symbols of the turns in ascending order. -/
def turns : Text := "&+-/\\^"

theorem turns_length_pos : 0 < turns.length := by
  decide

/-- A turn, each as likely as the others. -/
def randomTurn {σ : Type} (source : Source σ) (state : σ) : WordPart × σ :=
  let (symbol, next) := source.pick turns turns_length_pos state
  (.turn symbol, next)

/-- The number of branches that may be open at once. -/
def maxDepth : Nat := 3

/-- Draw `count` parts inside `depth` open branches, and close what is open at the end. A branch
opens with probability `branching`, and closes with the same. -/
def draw {σ : Type} (source : Source σ) (branching : Float) :
    (count depth : Nat) → σ → List WordPart × σ
  | 0, depth, state => (List.replicate depth .closeBranch, state)
  | count + 1, depth, state =>
      let (roll, afterRoll) := source.unit state
      if roll < branching ∧ depth < maxDepth then
        let (rest, last) := draw source branching count (depth + 1) afterRoll
        (.openBranch :: rest, last)
      else if roll < branching * 2 ∧ 0 < depth then
        let (rest, last) := draw source branching count (depth - 1) afterRoll
        (.closeBranch :: rest, last)
      else
        let (coin, afterCoin) := source.unit afterRoll
        let (part, afterPart) :=
          if coin < 0.5 then (.forward, afterCoin) else randomTurn source afterCoin
        let (rest, last) := draw source branching count depth afterPart
        (part :: rest, last)

/-- The word of some parts. A word without a step forward gets one at its end. -/
def word (parts : List WordPart) : Text :=
  (if parts.contains .forward then parts else parts ++ [.forward]).flatMap text

end WordPart

/-- The probability of branches in the words of random scenes. -/
def usualBranching : Float := 0.2

/-- A random word of `length` draws; a negative length counts as zero. -/
def randomWord {σ : Type} (source : Source σ) (branching : Float) (length : Int) (state : σ) :
    Text × σ :=
  let (parts, next) := WordPart.draw source branching length.toNat 0 state
  (WordPart.word parts, next)

end Lindenmayer
