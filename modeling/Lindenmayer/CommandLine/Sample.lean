import Lindenmayer.Grammar.Generation

/-!
# Samples of a grammar

Words can grow without bound. A sample follows the generations of a start word up to the first one
that is too long, and keeps the beginning of that one.
-/

namespace Lindenmayer

/-- The most symbols that a word may have to be sampled as a whole. -/
def sampleLimit : Nat := 10000

/-- A word of one of the generations, cut if it was too long. -/
structure Sample where
  word : Text
  generation : Nat
  cut : Bool
deriving DecidableEq

namespace RuleTable

/-- Sample a word that is the given generation, with so many generations left and with any way to
rewrite words. -/
def sampleWith {m : Type → Type} [Monad m] (rewrite : Text → m Text) (generation : Nat) :
    (left : Nat) → Text → m Sample
  | 0, word =>
      if sampleLimit < word.length then return ⟨word.take sampleLimit, generation, true⟩
      else return ⟨word, generation, false⟩
  | left + 1, word => do
      if sampleLimit < word.length then return ⟨word.take sampleLimit, generation, true⟩
      else sampleWith rewrite (generation + 1) left (← rewrite word)

/-- Sample a word with the plain rewriting of a table. -/
def sampleFrom (table : RuleTable) (generation left : Nat) (word : Text) : Sample :=
  Id.run (sampleWith (fun word => pure (table.rewrite word)) generation left word)

theorem sampleFrom_zero (table : RuleTable) (generation : Nat) (word : Text) :
    table.sampleFrom generation 0 word =
      if sampleLimit < word.length then ⟨word.take sampleLimit, generation, true⟩
      else ⟨word, generation, false⟩ := by
  rw [sampleFrom, sampleWith]
  split <;> rfl

theorem sampleFrom_succ (table : RuleTable) (generation left : Nat) (word : Text) :
    table.sampleFrom generation (left + 1) word =
      if sampleLimit < word.length then ⟨word.take sampleLimit, generation, true⟩
      else table.sampleFrom (generation + 1) left (table.rewrite word) := by
  rw [sampleFrom, sampleWith]
  split <;> rfl

/-- The sample of a start word and its next `count` generations. -/
def sample (table : RuleTable) (count : Nat) (start : Text) : Sample :=
  table.sampleFrom 0 count start

end RuleTable

/-- The number of symbols of a sample, with a plus if there are more. -/
def Sample.sizeText (sample : Sample) : Text :=
  Text.ofNat sample.word.length ++ if sample.cut then "+" else ""

end Lindenmayer
