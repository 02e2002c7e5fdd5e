import Lindenmayer.Proofs.Drawing
import Lindenmayer.Proofs.Token.Brackets

/-!
# Grammars that never underflow

If brackets and parentheses have no rules, and in the start word and all replacements the brackets
match and the groups are closed around symbols that rewriting leaves alone, then so it is in all
generations. Their tokens have the brackets of the word, and no drawing closes a missing branch.
-/

namespace Lindenmayer

variable {μ : Type}

namespace RuleTable

/-- What may not stand inside a group: brackets, and symbols with a rule. -/
def Disturbs (table : RuleTable) (point : CodePoint) : Prop :=
  point.IsBracket ∨ (table.lookup point).isSome

instance (table : RuleTable) (point : CodePoint) : Decidable (table.Disturbs point) :=
  inferInstanceAs (Decidable (_ ∨ _))

/-- A word whose brackets match and whose groups stay as they are when it is rewritten. -/
structure Preserves (table : RuleTable) (word : Text) : Prop where
  brackets : word.BracketsMatch
  groups : ShieldsGroups table.Disturbs word

variable {table : RuleTable} {word : Text}

theorem closesGroup_rewrite (hclosing : table.lookup (CodePoint.ofChar ')') = none) {after : Text}
    (hafter : ClosesGroup table.Disturbs after) :
    ClosesGroup table.Disturbs (table.rewrite after) := by
  obtain ⟨content, rest, rfl, hfree, hplain⟩ := hafter
  have hunknown : ∀ symbol ∈ content, table.lookup symbol = none := fun symbol hsymbol =>
    Option.not_isSome_iff_eq_none.mp fun hknown => hplain symbol hsymbol (.inr hknown)
  refine ⟨content, table.rewrite rest, ?_, hfree, hplain⟩
  rw [rewrite_append, rewrite_of_unknown hunknown, rewrite_cons, image, hclosing]
  rfl

/-- The groups of a rewritten word are the old ones and those of the replacements. -/
theorem shieldsGroups_rewrite (hclosing : table.lookup (CodePoint.ofChar ')') = none)
    (hreplacements : ∀ symbol replacement, table.lookup symbol = some replacement →
      ShieldsGroups table.Disturbs replacement)
    (hword : ShieldsGroups table.Disturbs word) :
    ShieldsGroups table.Disturbs (table.rewrite word) := by
  induction word with
  | nil => exact hword
  | cons symbol word ih =>
      obtain ⟨hgroup, hrest⟩ := shieldsGroups_cons.mp hword
      rw [rewrite_cons]
      rcases table.image_cases symbol with ⟨-, hsame⟩ | ⟨-, himage⟩
      · rw [hsame]
        exact shieldsGroups_cons.mpr
          ⟨fun hopening => closesGroup_rewrite hclosing (hgroup hopening), ih hrest⟩
      · exact (hreplacements symbol _ himage).append (ih hrest)

theorem shieldsGroups_generation (hclosing : table.lookup (CodePoint.ofChar ')') = none)
    (hreplacements : ∀ symbol replacement, table.lookup symbol = some replacement →
      ShieldsGroups table.Disturbs replacement)
    (hword : ShieldsGroups table.Disturbs word) (count : Nat) :
    ShieldsGroups table.Disturbs (table.generation count word) := by
  induction count generalizing word with
  | zero => exact hword
  | succ count ih => exact ih (shieldsGroups_rewrite hclosing hreplacements hword)

end RuleTable

/-- Tokens of a word with matching brackets never close a missing branch. -/
theorem interpret_ne_underflow {word : Text} {tokens : List Token} (hmatch : word.BracketsMatch)
    (hbrackets : (tokens.filter fun token => token.IsBracket).map Token.symbol =
      (word.filter fun point => point.IsBracket).map ([·]))
    (setup : Setup μ) (index : Nat) :
    (interpret setup tokens).outcome ≠ .error (.branchUnderflow index) := by
  intro hfault
  rw [outcome_interpret, Except.map_eq_error] at hfault
  have hnested := Command.nested_iff_nestedFrom.mp
    ((balanced_tokens_of_brackets hbrackets).mpr hmatch).1
  exact @Machine.run_ne_underflow_of_nestedFrom _ setup (Machine.initial setup) _ hnested index
    hfault

/-- If rewriting cannot disturb brackets and groups, then in every generation the brackets match and
are those of the tokens, and no drawing closes a missing branch. -/
theorem generations_never_underflow {rules : List Rule} {start : Text}
    (hplain : ∀ symbol ∈ Text.ofString "[]()", (RuleTable.ofRules rules).1.lookup symbol = none)
    (hstart : (RuleTable.ofRules rules).1.Preserves start)
    (hreplacements : ∀ symbol replacement,
      (RuleTable.ofRules rules).1.lookup symbol = some replacement →
        (RuleTable.ofRules rules).1.Preserves replacement)
    (count : Nat) :
    ∃ word, (grow rules start count).outcome = .ok word ∧ word.BracketsMatch ∧
      (∀ tokens, tokenize word = .ok tokens →
        (tokens.filter fun token => token.IsBracket).map Token.symbol =
          (word.filter fun point => point.IsBracket).map ([·])) ∧
      ∀ (setup : Setup μ) index,
        (draw setup rules start count).outcome ≠ .error (.branchUnderflow index) := by
  have hkeeps := RuleTable.keepsBranches_of_bracketsMatch (hplain _ (by decide))
    (hplain _ (by decide)) fun symbol replacement hlookup =>
      (hreplacements symbol replacement hlookup).brackets
  have hmatch := Text.bracketsMatch_iff.mpr
    (hkeeps.balanced_generation (Text.bracketsMatch_iff.mp hstart.brackets) count)
  have hgroups := RuleTable.shieldsGroups_generation (hplain _ (by decide))
    (fun symbol replacement hlookup => (hreplacements symbol replacement hlookup).groups)
    hstart.groups count
  have hbrackets := fun {tokens : List Token} => @ShieldsGroups.brackets_tokenize _
    (fun _ => .inl) _ hgroups tokens
  refine ⟨_, outcome_grow rules start count, hmatch, fun _ => hbrackets, ?_⟩
  intro setup index hfault
  rw [outcome_draw] at hfault
  cases htokens : tokenize ((RuleTable.ofRules rules).1.generation count start) with
  | error fault =>
      obtain ⟨content, rfl⟩ := tokenize_eq_error htokens
      rw [htokens] at hfault
      exact nomatch hfault
  | ok tokens =>
      rw [htokens] at hfault
      exact interpret_ne_underflow hmatch (hbrackets htokens) setup index hfault

/-- A step that becomes a step with a branch, so that its parameter goes to a closing bracket. -/
def branchingSteps : List Rule := [⟨"F", "F[+F]"⟩]

theorem branchingSteps_never_underflow :
    ∃ word, (grow branchingSteps "F(1)" 2).outcome = .ok word ∧ word.BracketsMatch ∧
      (∀ tokens, tokenize word = .ok tokens →
        (tokens.filter fun token => token.IsBracket).map Token.symbol =
          (word.filter fun point => point.IsBracket).map ([·])) ∧
      ∀ (setup : Setup Text) index,
        (draw setup branchingSteps "F(1)" 2).outcome ≠ .error (.branchUnderflow index) := by
  have hstart : (RuleTable.ofRules branchingSteps).1.Preserves "F(1)" := by
    refine ⟨by decide, shieldsGroups_cons.mpr ⟨fun hsymbol => absurd hsymbol (by decide),
      shieldsGroups_cons.mpr ⟨fun _ => ?_, shieldsGroups_of_notMem (by decide)⟩⟩⟩
    exact ⟨"1", [], rfl, by decide, by decide⟩
  have hentries : ∀ entry ∈ (RuleTable.ofRules branchingSteps).1.entries,
      CodePoint.ofChar '(' ∉ entry.2 ∧ entry.2.BracketsMatch := by
    decide
  refine generations_never_underflow (by decide) hstart (fun symbol replacement hlookup => ?_) 2
  obtain ⟨hplain, hmatch⟩ := hentries _ (RuleTable.mem_entries_of_lookup hlookup)
  exact ⟨hmatch, shieldsGroups_of_notMem hplain⟩

end Lindenmayer
