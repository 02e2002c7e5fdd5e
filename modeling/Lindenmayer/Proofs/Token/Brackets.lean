import Lindenmayer.Proofs.Branch.Rewriting
import Lindenmayer.Proofs.Token.Reading
import Lindenmayer.Proofs.Turtle.Symbols

/-!
# Brackets of words and of their tokens

The brackets of a word match if no closing one comes before its opening and each is closed in the
end. A group can swallow brackets of a word, so they are the brackets of its tokens only if all its
groups are closed and free of them.
-/

namespace Lindenmayer

open Command

/-- A code point has a command exactly if it is the character of the command. -/
theorem CodePoint.command_eq_iff {point : CodePoint} {command : Command} {char : Char}
    (hchar : command.char? = some char) :
    point.command = command ↔ point = CodePoint.ofChar char := by
  rw [CodePoint.command, Token.command_eq_iff hchar, List.cons.injEq]
  exact and_iff_left rfl

/-- Whether a code point is a bracket. -/
def CodePoint.IsBracket (point : CodePoint) : Prop :=
  point = CodePoint.ofChar '[' ∨ point = CodePoint.ofChar ']'

instance (point : CodePoint) : Decidable point.IsBracket :=
  inferInstanceAs (Decidable (_ ∨ _))

theorem CodePoint.isBracket_command {point : CodePoint} :
    point.command.IsBracket ↔ point.IsBracket :=
  or_congr (CodePoint.command_eq_iff rfl) (CodePoint.command_eq_iff rfl)

namespace Text

/-- No closing bracket comes before its opening, and each opening one is closed. -/
def BracketsMatch (word : Text) : Prop :=
  (∀ before, before <+: word →
      before.count (CodePoint.ofChar ']') ≤ before.count (CodePoint.ofChar '[')) ∧
    word.count (CodePoint.ofChar ']') = word.count (CodePoint.ofChar '[')

theorem count_commands {command : Command} {char : Char} (hchar : command.char? = some char)
    (word : Text) : word.commands.count command = word.count (CodePoint.ofChar char) := by
  have hcount := Token.count_command hchar (word.map fun symbol => ⟨[symbol], none⟩)
  rw [List.map_map, List.map_map] at hcount
  exact hcount.trans (count_singletons word _)

/-- The depth of a word counts its opening brackets and subtracts the closing ones. -/
theorem depth_commands (word : Text) :
    depth word.commands =
      word.count (CodePoint.ofChar '[') - word.count (CodePoint.ofChar ']') := by
  rw [depth_eq_count, count_commands rfl, count_commands rfl]

theorem bracketsMatch_iff {word : Text} : word.BracketsMatch ↔ Balanced word.commands := by
  rw [BracketsMatch, Command.Balanced, depth_commands, nested_iff_beginnings]
  refine and_congr ⟨fun hbefore commands hcommands => ?_, fun hnested before hbefore => ?_⟩ ?_
  · obtain ⟨before, hprefix, rfl⟩ := List.prefix_map_iff.mp hcommands
    have hcount := hbefore before hprefix
    change 0 ≤ depth (commands before)
    rw [depth_commands]
    omega
  · have hdepth := hnested _ (hbefore.map CodePoint.command)
    change 0 ≤ depth (commands before) at hdepth
    rw [depth_commands] at hdepth
    omega
  · omega

instance (word : Text) : Decidable word.BracketsMatch :=
  decidable_of_iff _ bracketsMatch_iff.symm

end Text

theorem RuleTable.keepsBranches_of_bracketsMatch {table : RuleTable}
    (hopen : table.lookup (CodePoint.ofChar '[') = none)
    (hclose : table.lookup (CodePoint.ofChar ']') = none)
    (hmatch : ∀ symbol replacement, table.lookup symbol = some replacement →
      replacement.BracketsMatch) : table.KeepsBranches where
  plain symbol hsymbol hbracket := by
    have hknown := (table.isSome_lookup_iff symbol).mpr hsymbol
    rcases CodePoint.isBracket_command.mp hbracket with rfl | rfl
    · simp [hopen] at hknown
    · simp [hclose] at hknown
  balanced symbol replacement hreplacement :=
    Text.bracketsMatch_iff.mp (hmatch symbol replacement hreplacement)

/-- What follows an opening parenthesis has a closing one, and no excluded symbol before it. -/
def ClosesGroup (excluded : CodePoint → Prop) (after : Text) : Prop :=
  ∃ content rest, after = content ++ CodePoint.ofChar ')' :: rest ∧
    CodePoint.ofChar ')' ∉ content ∧ ∀ point ∈ content, ¬ excluded point

/-- Each opening parenthesis has a closing one, and no excluded symbol between them. -/
def ShieldsGroups (excluded : CodePoint → Prop) (word : Text) : Prop :=
  ∀ before after, word = before ++ CodePoint.ofChar '(' :: after → ClosesGroup excluded after

section Shielding

variable {excluded : CodePoint → Prop} {word first second rest : Text} {point : CodePoint}

theorem ClosesGroup.append (hfirst : ClosesGroup excluded first) (second : Text) :
    ClosesGroup excluded (first ++ second) := by
  obtain ⟨content, rest, rfl, hcontent⟩ := hfirst
  exact ⟨content, rest ++ second, by simp, hcontent⟩

theorem shieldsGroups_cons :
    ShieldsGroups excluded (point :: rest) ↔
      (point = CodePoint.ofChar '(' → ClosesGroup excluded rest) ∧ ShieldsGroups excluded rest := by
  constructor
  · intro hword
    refine ⟨?_, fun before after hrest => ?_⟩
    · rintro rfl
      exact hword [] rest rfl
    · exact hword (point :: before) after (congrArg _ hrest)
  · rintro ⟨hpoint, hrest⟩ before after hword
    cases before with
    | nil =>
        obtain ⟨rfl, rfl⟩ := List.cons.inj hword
        exact hpoint rfl
    | cons next before => exact hrest before after (List.cons.inj hword).2

theorem shieldsGroups_of_notMem (hword : CodePoint.ofChar '(' ∉ word) :
    ShieldsGroups excluded word := by
  rintro before after rfl
  exact absurd (List.mem_append_right _ List.mem_cons_self) hword

theorem ShieldsGroups.append (hfirst : ShieldsGroups excluded first)
    (hsecond : ShieldsGroups excluded second) : ShieldsGroups excluded (first ++ second) := by
  induction first with
  | nil => exact hsecond
  | cons point first ih =>
      rw [shieldsGroups_cons] at hfirst
      rw [List.cons_append, shieldsGroups_cons]
      exact ⟨fun hpoint => (hfirst.1 hpoint).append second, ih hfirst.2⟩

theorem ShieldsGroups.of_append (hword : ShieldsGroups excluded (first ++ second)) :
    ShieldsGroups excluded second := by
  rintro before after rfl
  exact hword (first ++ before) after (List.append_assoc ..).symm

/-- A group of a word goes to the first closing parenthesis, so no excluded symbol is in it. -/
theorem ShieldsGroups.content {content : Text} (hfree : CodePoint.ofChar ')' ∉ content)
    (hword : ShieldsGroups excluded
      (CodePoint.ofChar '(' :: (content ++ CodePoint.ofChar ')' :: rest))) :
    ∀ point ∈ content, ¬ excluded point := by
  obtain ⟨shielded, after, hshielded, hclosed, hplain⟩ := hword [] _ rfl
  have hbefore := congrArg beforeClosing? hshielded
  rw [beforeClosing?_append hfree, beforeClosing?_append hclosed, Option.some.injEq] at hbefore
  rwa [hbefore]

end Shielding

/-- Whether a token has a bracket as its symbol. -/
def Token.IsBracket (token : Token) : Prop :=
  token.symbol = [CodePoint.ofChar '['] ∨ token.symbol = [CodePoint.ofChar ']']

instance (token : Token) : Decidable token.IsBracket :=
  inferInstanceAs (Decidable (_ ∨ _))

theorem Token.isBracket_singleton {point : CodePoint} {parameter : Option Float} :
    Token.IsBracket ⟨[point], parameter⟩ ↔ point.IsBracket := by
  simp [Token.IsBracket, CodePoint.IsBracket]

theorem CodePoint.isSymbol_of_isBracket {point : CodePoint} (hbracket : point.IsBracket) :
    point.isSymbol = true := by
  rcases hbracket with rfl | rfl <;> decide

/-- A group of a word brings no brackets if none may be in it. -/
theorem ShieldsGroups.filter_group {excluded : CodePoint → Prop}
    (hexcluded : ∀ point : CodePoint, point.IsBracket → excluded point) {content rest : Text}
    (hfree : CodePoint.ofChar ')' ∉ content)
    (hword : ShieldsGroups excluded
      (CodePoint.ofChar '(' :: (content ++ CodePoint.ofChar ')' :: rest))) :
    (CodePoint.ofChar '(' :: (content ++ CodePoint.ofChar ')' :: rest)).filter
      (fun point => point.IsBracket) = rest.filter fun point => point.IsBracket := by
  have hcontent : content.filter (fun point => point.IsBracket) = [] :=
    List.filter_eq_nil_iff.mpr fun point hpoint hbracket =>
      hword.content hfree point hpoint (hexcluded point (of_decide_eq_true hbracket))
  rw [List.filter_cons_of_neg (by decide), List.filter_append, hcontent, List.nil_append,
    List.filter_cons_of_neg (by decide)]

theorem brackets_ofPieces {excluded : CodePoint → Prop}
    (hexcluded : ∀ point : CodePoint, point.IsBracket → excluded point) {word : Text}
    {parts : List Piece} (hsplits : Splits word parts) (hword : ShieldsGroups excluded word)
    {tokens : List Token} (htokens : Token.ofPieces parts = .ok tokens) :
    (tokens.filter fun token => token.IsBracket).map Token.symbol =
      (word.filter fun point => point.IsBracket).map ([·]) := by
  induction hsplits generalizing tokens with
  | nil =>
      obtain rfl := Except.ok.inj htokens
      rfl
  | @skipped point rest parts hpoint _ ih =>
      have hplain : ¬ point.IsBracket := fun hbracket => by
        have hsymbol := CodePoint.isSymbol_of_isBracket hbracket
        rw [hpoint.elim CodePoint.isSymbol_of_isBlank id] at hsymbol
        exact nomatch hsymbol
      rw [List.filter_cons_of_neg (by simpa using hplain)]
      exact ih (shieldsGroups_cons.mp hword).2 htokens
  | @bare symbol rest parts _ _ _ ih =>
      obtain ⟨later, hlater, rfl⟩ := Except.map_eq_ok.mp htokens
      have hrest := ih (shieldsGroups_cons.mp hword).2 hlater
      simp only [List.filter_cons, Token.isBracket_singleton]
      split <;> simp [hrest]
  | @group symbol content rest parts _ _ hfree _ ih =>
      rw [Token.ofPieces] at htokens
      cases hcontent : readParameter content with
      | error fault => simp [hcontent] at htokens
      | ok parameter =>
          simp only [hcontent, Except.map_eq_ok] at htokens
          obtain ⟨later, hlater, rfl⟩ := htokens
          have hgroup := (shieldsGroups_cons.mp hword).2
          have hafter := @ShieldsGroups.of_append _ (CodePoint.ofChar '(' :: content) _ hgroup
          have hrest := ih (shieldsGroups_cons.mp hafter).2 hlater
          rw [List.filter_cons, List.filter_cons (x := symbol),
            hgroup.filter_group hexcluded hfree]
          simp only [Token.isBracket_singleton]
          split <;> simp [hrest]

/-- The brackets among the tokens of a word are the brackets of the word if its groups are closed
and have none inside. -/
theorem ShieldsGroups.brackets_tokenize {excluded : CodePoint → Prop}
    (hexcluded : ∀ point : CodePoint, point.IsBracket → excluded point) {word : Text}
    (hword : ShieldsGroups excluded word) {tokens : List Token}
    (htokens : tokenize word = .ok tokens) :
    (tokens.filter fun token => token.IsBracket).map Token.symbol =
      (word.filter fun point => point.IsBracket).map ([·]) :=
  brackets_ofPieces hexcluded (splits_pieces word) hword htokens

theorem Token.isBracket_command {token : Token} : token.command.IsBracket ↔ token.IsBracket := by
  obtain ⟨symbol, parameter⟩ := token
  match symbol with
  | [] => simp [Token.command, Token.IsBracket, Command.IsBracket]
  | [point] => exact CodePoint.isBracket_command.trans Token.isBracket_singleton.symm
  | _ :: _ :: _ => simp [Token.command, Token.IsBracket, Command.IsBracket]

/-- Words and tokens with the same brackets open and close the same branches. -/
theorem filter_commands_of_brackets {word : Text} {tokens : List Token}
    (hbrackets : (tokens.filter fun token => token.IsBracket).map Token.symbol =
      (word.filter fun point => point.IsBracket).map ([·])) :
    (tokens.map Token.command).filter (fun command => command.IsBracket) =
      word.commands.filter fun command => command.IsBracket := by
  have hcommands := congrArg (List.map fun symbol => Token.command ⟨symbol, none⟩) hbrackets
  rw [List.map_map, List.map_map] at hcommands
  rw [Text.commands, List.filter_map, List.filter_map]
  simp only [Function.comp_def, Token.isBracket_command, CodePoint.isBracket_command]
  exact hcommands

theorem balanced_tokens_of_brackets {word : Text} {tokens : List Token}
    (hbrackets : (tokens.filter fun token => token.IsBracket).map Token.symbol =
      (word.filter fun point => point.IsBracket).map ([·])) :
    Command.Balanced (tokens.map Token.command) ↔ word.BracketsMatch := by
  have hkeep : ∀ command : Command, command.IsBracket → decide command.IsBracket :=
    fun _ hbracket => decide_eq_true hbracket
  rw [Text.bracketsMatch_iff, ← balanced_filter hkeep, filter_commands_of_brackets hbrackets,
    balanced_filter hkeep]

end Lindenmayer
