import Lindenmayer.Grammar.Rule
import Lindenmayer.Turtle.State

/-!
# Scenes

A scene is a named drawing: a start word, rules, a number of generations, and the setup of the
turtle, whose materials are texts.
-/

namespace Lindenmayer

/-- A named drawing. Every rule has a key of one symbol. -/
structure Scene where
  name : Text
  start : Text
  iterations : Nat
  rules : List Rule
  setup : Setup (Option Text)
deriving DecidableEq

/-- The setup that a scene without a turtle has. -/
def Scene.defaultSetup : Setup (Option Text) :=
  Setup.standard none

end Lindenmayer
