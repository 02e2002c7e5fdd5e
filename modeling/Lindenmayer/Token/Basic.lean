import Lindenmayer.Token.Parameter
import Lindenmayer.Token.Piece

/-!
# Tokens

A token is a symbol of a word with its parameter, if it has one. A group that is not a number leaves
its symbol without a parameter.
-/

namespace Lindenmayer

/-- A symbol with an optional parameter. Tokens read from a word have symbols of one code point. -/
structure Token where
  symbol : Text
  parameter : Option Float
deriving DecidableEq

namespace Token

/-- The tokens of some pieces. The first parameter that cannot be read ends the reading. -/
def ofPieces : List Piece → Except Fault (List Token)
  | [] => .ok []
  | .skipped _ :: rest => ofPieces rest
  | .bare symbol :: rest => (ofPieces rest).map (⟨[symbol], none⟩ :: ·)
  | .group symbol content :: rest =>
      match readParameter content with
      | .error fault => .error fault
      | .ok parameter => (ofPieces rest).map (⟨[symbol], parameter⟩ :: ·)

end Token

/-- The tokens of a word. -/
def tokenize (word : Text) : Except Fault (List Token) :=
  Token.ofPieces (pieces word)

end Lindenmayer
