import Lindenmayer.Turtle.State
import Mathlib

/-!
# Symbols of commands

Every command but the one to do nothing belongs to exactly one symbol, so what is said of the
commands of tokens can be said of their symbols.
-/

namespace Lindenmayer

namespace CodePoint

theorem toChar?_ofChar (char : Char) : (ofChar char).toChar? = some char := by
  have hplain : ¬ (ofChar char).isSurrogate := by
    rw [isSurrogate, Bool.and_eq_true, decide_eq_true_eq, decide_eq_true_eq]
    rcases char.valid with hlow | ⟨hhigh, -⟩
    · exact fun hsurrogate => Nat.not_lt.mpr hsurrogate.1 hlow
    · exact fun hsurrogate => Nat.not_lt.mpr hhigh hsurrogate.2
  rw [toChar?, if_neg hplain]
  exact congrArg some (Char.ofNat_toNat char)

theorem eq_ofChar {point : CodePoint} {char : Char} (hchar : point.toChar? = some char) :
    point = ofChar char := by
  rw [toChar?] at hchar
  split at hchar
  next => exact nomatch hchar
  next hplain =>
    obtain rfl := Option.some.inj hchar
    have hvalid : point.value.isValidChar := by
      have hbound := point.value_lt
      simp only [isSurrogate, Bool.and_eq_true, decide_eq_true_eq, not_and, Nat.not_lt] at hplain
      simp only [Nat.isValidChar]
      omega
    obtain ⟨value, hvalue⟩ := point
    simp only [ofChar, CodePoint.mk.injEq]
    rw [Char.toNat_ofNat, if_pos hvalid]

end CodePoint

theorem Text.count_singletons (word : Text) (point : CodePoint) :
    (word.map fun symbol => ([symbol] : Text)).count [point] = word.count point :=
  List.count_map_of_injective _ _ (fun _ _ heq => (List.cons.inj heq).1) _

namespace Command

/-- The character of a command; doing nothing has many. -/
def char? : Command → Option Char
  | .forward => some 'F'
  | .turn .z false => some '+'
  | .turn .z true => some '-'
  | .turn .x false => some '&'
  | .turn .x true => some '^'
  | .turn .y false => some '/'
  | .turn .y true => some '\\'
  | .widen => some '!'
  | .narrow => some '?'
  | .lengthen => some '"'
  | .shorten => some '_'
  | .choose => some 'M'
  | .openBranch => some '['
  | .closeBranch => some ']'
  | .ignore => none

theorem char?_ofChar (char : Char) (hcommand : ofChar char ≠ .ignore) :
    (ofChar char).char? = some char := by
  revert hcommand
  unfold ofChar
  split <;> intro hcommand
  all_goals first | rfl | exact absurd rfl hcommand

theorem ofChar_of_char? {command : Command} {char : Char} (hchar : command.char? = some char) :
    ofChar char = command := by
  cases command with
  | turn axis backward => cases axis <;> cases backward <;> cases hchar <;> rfl
  | _ => cases hchar <;> rfl

/-- A command that has a character is given by no other one. -/
theorem ofChar_eq_iff {command : Command} {char other : Char}
    (hchar : command.char? = some char) : ofChar other = command ↔ other = char := by
  constructor
  · intro hother
    have hne : ofChar other ≠ .ignore := by
      rintro hignore
      rw [← hother, hignore] at hchar
      exact nomatch hchar
    have hsame := char?_ofChar other hne
    rw [hother, hchar] at hsame
    exact (Option.some.inj hsame).symm
  · rintro rfl
    exact ofChar_of_char? hchar

end Command

namespace Token

theorem command_ofChar (char : Char) (parameter : Option Float) :
    command ⟨[CodePoint.ofChar char], parameter⟩ = Command.ofChar char := by
  change ((CodePoint.ofChar char).toChar?.map Command.ofChar).getD .ignore = Command.ofChar char
  rw [CodePoint.toChar?_ofChar]
  rfl

/-- A token has a command exactly if its symbol is the character of the command. -/
theorem command_eq_iff {token : Token} {command : Command} {char : Char}
    (hchar : command.char? = some char) :
    token.command = command ↔ token.symbol = [CodePoint.ofChar char] := by
  have hne : Command.ignore ≠ command := by
    rintro rfl
    exact nomatch hchar
  obtain ⟨symbol, parameter⟩ := token
  constructor
  · intro hcommand
    unfold Token.command at hcommand
    split at hcommand
    next point hpoint =>
      cases hplain : point.toChar? with
      | none =>
          rw [hplain] at hcommand
          exact absurd hcommand hne
      | some other =>
          rw [hplain, Option.map_some, Option.getD_some, Command.ofChar_eq_iff hchar] at hcommand
          rw [CodePoint.eq_ofChar hplain, hcommand] at hpoint
          exact hpoint
    next => exact absurd hcommand hne
  · rintro rfl
    exact (command_ofChar char parameter).trans (Command.ofChar_of_char? hchar)

theorem command_eq_forward_iff {token : Token} :
    token.command = .forward ↔ token.symbol = Text.ofString "F" :=
  @command_eq_iff token .forward 'F' rfl

theorem command_eq_closeBranch_iff {token : Token} :
    token.command = .closeBranch ↔ token.symbol = Text.ofString "]" :=
  @command_eq_iff token .closeBranch ']' rfl

theorem count_command {command : Command} {char : Char} (hchar : command.char? = some char)
    (tokens : List Token) :
    (tokens.map Token.command).count command =
      (tokens.map Token.symbol).count [CodePoint.ofChar char] := by
  rw [List.count, List.countP_map, List.count, List.countP_map]
  refine List.countP_congr fun token _ => ?_
  simp only [Function.comp_apply, beq_iff_eq]
  exact command_eq_iff hchar

end Token

end Lindenmayer
