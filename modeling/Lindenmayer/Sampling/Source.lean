/-!
# Sources of draws

Everything that is drawn at random comes from a source with two kinds of draws: a number of the unit
interval, and a whole number below a bound. What is made of the draws makes no assumption about the
source, so it holds for every sequence of draws.
-/

namespace Lindenmayer

/-- Draws from a state that each draw moves on. -/
structure Source (σ : Type) where
  /-- A number that is at least zero and less than one. -/
  unit : σ → Float × σ
  /-- A whole number below a positive bound. -/
  below : (bound : Nat) → 0 < bound → σ → Fin bound × σ

namespace Source

variable {σ α : Type}

/-- One of some items, each given by its index. -/
def pick (source : Source σ) (items : List α) (hitems : 0 < items.length) (state : σ) : α × σ :=
  let (index, next) := source.below items.length hitems state
  (items[index], next)

/-- A whole number from `low` to `high`, both included. -/
def between (source : Source σ) (low high : Nat) (state : σ) : Nat × σ :=
  let (offset, next) := source.below (high - low + 1) (Nat.succ_pos _) state
  (low + offset, next)

end Source

end Lindenmayer
