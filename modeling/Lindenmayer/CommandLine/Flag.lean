import Lindenmayer.Text.CodePoint

/-!
# Flags

There are flags before the command and flags of the command itself. A flag asks for help, for more
to be told, or gives the seed of a random scene.
-/

namespace Lindenmayer

/-- The separator after which no argument is a flag. -/
def separatorText : Text := "--"

/-- What a flag asks for. -/
inductive Flag where
  | help
  | verbose
  /-- Takes an integer. -/
  | seed
deriving DecidableEq

/-- The flags of one place of the command line, by name. -/
abbrev Flags := List (Text × Flag)

/-- The flags in front of the name of a command. -/
def generalFlags : Flags :=
  [("-h", .help), ("--help", .help), ("-v", .verbose), ("--verbose", .verbose)]

/-- The flags of commands without options. -/
def plainFlags : Flags :=
  [("-h", .help), ("--help", .help)]

/-- The flags of the command for random scenes. -/
def randomFlags : Flags :=
  [("-h", .help), ("--help", .help), ("--seed", .seed)]

/-- Why no command is carried out. -/
inductive Refusal where
  | help
  | badUsage
deriving DecidableEq

/-- Help has been asked for, so giving it is a success. -/
def Refusal.code : Refusal → Nat
  | .help => 0
  | .badUsage => 2

end Lindenmayer
