import Lindenmayer.Proofs.Drawing
import Lindenmayer.Proofs.Token.Brackets

/-!
# Composition of branches

A closed branch brings everything about the turtle back but what was drawn and read, so what comes
after it is drawn as if it stood alone. This holds for the tokens of a branch, and for all
generations of its word if rewriting keeps the branch closed.
-/

namespace Lindenmayer

open Command

variable {μ : Type} {setup : Setup μ}

namespace Machine

variable {opening closing : Token} {inner rest : List Token} {last : Machine μ}

/-- After a branch the machine is the initial one on top of what the branch has drawn and read. -/
theorem run_closed_branch (hopen : opening.command = .openBranch)
    (hclose : closing.command = .closeBranch) (hinner : Command.Balanced (inner.map Token.command))
    (hrun : (initial setup).run setup inner = .ok last) :
    (initial setup).run setup (opening :: inner ++ [closing]) =
      .ok ((initial setup).above
        ⟨State.initial setup, [], last.drawn, (opening :: inner ++ [closing]).length⟩) := by
  have hentered : (initial setup).step setup opening = .ok ((initial setup).above
      ⟨State.initial setup, [State.initial setup], [], 1⟩) :=
    step_open setup _ hopen
  have hinside : ((initial setup).above ⟨State.initial setup, [State.initial setup], [], 1⟩).run
      setup inner = .ok (last.above ⟨State.initial setup, [State.initial setup], [], 1⟩) :=
    run_above hrun
  have hbranches := branches_run_of_balanced hinner hrun
  have hindex := index_run hrun
  refine run_append_eq_ok.mpr ⟨_, run_cons_eq_ok.mpr ⟨_, hentered, hinside⟩, ?_⟩
  rw [run_singleton, step, hclose, above, hbranches, hindex]
  simp [above, initial]

end Machine

/-- What comes after a closed branch is drawn as if it stood alone, or underflows where it would. -/
theorem interpret_branch_append {opening closing : Token} {inner rest : List Token}
    (hopen : opening.command = .openBranch) (hclose : closing.command = .closeBranch)
    (hinner : Command.Balanced (inner.map Token.command)) {own : List (Segment μ)}
    (hown : (interpret setup inner).outcome = .ok own) :
    (∀ segments, (interpret setup rest).outcome = .ok segments →
      (interpret setup (opening :: inner ++ [closing] ++ rest)).outcome = .ok (own ++ segments)) ∧
    ∀ index, (interpret setup rest).outcome = .error (.branchUnderflow index) →
      (interpret setup (opening :: inner ++ [closing] ++ rest)).outcome =
        .error (.branchUnderflow (index + (opening :: inner ++ [closing]).length)) := by
  obtain ⟨last, hlast, rfl⟩ := interpret_eq_ok.mp hown
  rw [outcome_interpret, outcome_interpret, Machine.run_append,
    Machine.run_closed_branch hopen hclose hinner hlast]
  refine ⟨fun segments hsegments => ?_, fun index hindex => ?_⟩
  · obtain ⟨after, hafter, rfl⟩ := Except.map_eq_ok.mp hsegments
    rw [Except.bind, Machine.run_above hafter]
    simp [Except.map, Machine.segments, Machine.above]
  · rw [Except.map_eq_error] at hindex ⊢
    exact Machine.run_above_underflow rfl hindex

/-- A word in brackets is read as its tokens between those of the brackets. -/
theorem tokenize_branch_append {inside after : Text} (hinside : CodePoint.ofChar '(' ∉ inside)
    (hafter : CodePoint.ofChar '(' ∉ after) {inner rest : List Token}
    (hinner : tokenize inside = .ok inner) (hrest : tokenize after = .ok rest) :
    tokenize ("[" ++ inside ++ "]" ++ after) =
      .ok (⟨"[", none⟩ :: inner ++ [⟨"]", none⟩] ++ rest) := by
  have hwhole : CodePoint.ofChar '(' ∉ "[" ++ inside ++ "]" ++ after := by
    have hopen : CodePoint.ofChar '(' ∉ Text.ofString "[" := by decide
    have hclose : CodePoint.ofChar '(' ∉ Text.ofString "]" := by decide
    simp only [List.mem_append, hopen, hinside, hclose, hafter, or_self, not_false_eq_true]
  have hopenTokens : ((Text.ofString "[").filter CodePoint.isSymbol).map
      (fun symbol => (⟨[symbol], none⟩ : Token)) = [⟨"[", none⟩] := by decide
  have hcloseTokens : ((Text.ofString "]").filter CodePoint.isSymbol).map
      (fun symbol => (⟨[symbol], none⟩ : Token)) = [⟨"]", none⟩] := by decide
  rw [tokenize_of_notMem hinside, Except.ok.injEq] at hinner
  rw [tokenize_of_notMem hafter, Except.ok.injEq] at hrest
  rw [tokenize_of_notMem hwhole]
  simp only [List.filter_append, List.map_append, hinner, hrest, hopenTokens, hcloseTokens]
  rfl

/-- Rewriting keeps a balanced word in brackets apart from what comes after it. -/
theorem RuleTable.tokenize_generation_branch {table : RuleTable}
    (hopen : table.lookup (CodePoint.ofChar '[') = none)
    (hclose : table.lookup (CodePoint.ofChar ']') = none)
    (hreplacements : ∀ symbol replacement, table.lookup symbol = some replacement →
      CodePoint.ofChar '(' ∉ replacement ∧ replacement.BracketsMatch)
    {inside : Text} (hinside : CodePoint.ofChar '(' ∉ inside) (hmatch : inside.BracketsMatch)
    (count : Nat) :
    ∃ inner, tokenize (table.generation count inside) = .ok inner ∧
      Command.Balanced (inner.map Token.command) ∧
      ∀ after : Text, CodePoint.ofChar '(' ∉ after →
        ∃ rest, tokenize (table.generation count after) = .ok rest ∧
          tokenize (table.generation count ("[" ++ inside ++ "]" ++ after)) =
            .ok (⟨"[", none⟩ :: inner ++ [⟨"]", none⟩] ++ rest) := by
  have hkeeps := keepsBranches_of_bracketsMatch hopen hclose
    fun symbol replacement hreplacement => (hreplacements symbol replacement hreplacement).2
  have hplain : ∀ {word : Text}, CodePoint.ofChar '(' ∉ word →
      CodePoint.ofChar '(' ∉ table.generation count word := fun hword =>
    notMem_generation (fun key replacement hkey => (hreplacements key replacement hkey).1)
      hword count
  have hinner := tokenize_of_notMem (hplain hinside)
  refine ⟨_, hinner, ?_, fun after hafter => ⟨_, tokenize_of_notMem (hplain hafter), ?_⟩⟩
  · have hbrackets := (shieldsGroups_of_notMem (hplain hinside)).brackets_tokenize
      (fun _ hbracket => hbracket) hinner
    rw [balanced_tokens_of_brackets hbrackets, Text.bracketsMatch_iff]
    exact hkeeps.balanced_generation (Text.bracketsMatch_iff.mp hmatch) count
  · rw [generation_append, generation_append, generation_append]
    have hopenSame : table.generation count (Text.ofString "[") = "[" :=
      generation_of_unknown (List.forall_mem_singleton.mpr hopen) count
    have hcloseSame : table.generation count (Text.ofString "]") = "]" :=
      generation_of_unknown (List.forall_mem_singleton.mpr hclose) count
    rw [hopenSame, hcloseSame]
    exact tokenize_branch_append (hplain hinside) (hplain hafter) hinner
      (tokenize_of_notMem (hplain hafter))

/-- In all generations, what comes after a closed branch is drawn as if it stood alone. -/
theorem draw_branch_append {setup : Setup μ} (hangle : setup.angle.isInf = false)
    {rules : List Rule}
    (hopen : (RuleTable.ofRules rules).1.lookup (CodePoint.ofChar '[') = none)
    (hclose : (RuleTable.ofRules rules).1.lookup (CodePoint.ofChar ']') = none)
    (hreplacements : ∀ symbol replacement,
      (RuleTable.ofRules rules).1.lookup symbol = some replacement →
        CodePoint.ofChar '(' ∉ replacement ∧ replacement.BracketsMatch)
    {inside after : Text} (hinside : CodePoint.ofChar '(' ∉ inside)
    (hmatch : inside.BracketsMatch) (hafter : CodePoint.ofChar '(' ∉ after) (count : Nat) :
    (∀ segments, (draw setup rules after count).outcome = .ok segments →
      ∃ own, (draw setup rules inside count).outcome = .ok own ∧
        (draw setup rules ("[" ++ inside ++ "]" ++ after) count).outcome = .ok (own ++ segments)) ∧
    ∀ index, (draw setup rules after count).outcome = .error (.branchUnderflow index) →
      ∃ branch tokens, (grow rules ("[" ++ inside ++ "]") count).outcome = .ok branch ∧
        tokenize branch = .ok tokens ∧
        (draw setup rules ("[" ++ inside ++ "]" ++ after) count).outcome =
          .error (.branchUnderflow (index + tokens.length)) := by
  obtain ⟨inner, hinner, hbalanced, hwhole⟩ :=
    RuleTable.tokenize_generation_branch hopen hclose hreplacements hinside hmatch count
  obtain ⟨rest, hrest, hall⟩ := hwhole after hafter
  obtain ⟨own, hown⟩ := exists_interpret (canObey_of_tokenize hangle hinner) hbalanced.1
  obtain ⟨hdrawn, hstopped⟩ := @interpret_branch_append _ setup ⟨"[", none⟩ ⟨"]", none⟩ inner rest
    (by decide) (by decide) hbalanced own hown
  simp only [outcome_draw, outcome_grow, hinner, hrest, hall]
  refine ⟨fun segments hsegments => ⟨own, hown, hdrawn segments hsegments⟩,
    fun index hindex => ⟨_, _, rfl, ?_, hstopped index hindex⟩⟩
  -- Without anything after it, the branch consists of the same tokens.
  obtain ⟨_, hnone, halone⟩ := hwhole [] List.not_mem_nil
  rw [RuleTable.generation_of_unknown fun _ hnil => absurd hnil List.not_mem_nil] at hnone
  obtain rfl := Except.ok.inj hnone
  rwa [List.append_nil, List.append_nil] at halone

/-- A step that becomes a step with a wide one beside it. -/
def wideShoots : List Rule := [⟨"F", "F[!F]"⟩]

theorem wideShoots_draw_append :
    (∃ own, (draw (Setup.standard ()) wideShoots "F" 1).outcome = .ok own ∧
      (draw (Setup.standard ()) wideShoots ("[" ++ "F" ++ "]" ++ "F") 1).outcome = .ok (own ++
        [⟨⟨0, 0, 0⟩, ⟨0, 1, 0⟩, 0.1, ()⟩, ⟨⟨0, 1, 0⟩, ⟨0, 2, 0⟩, 0.2, ()⟩])) ∧
    ∃ branch tokens, (grow wideShoots ("[" ++ "F" ++ "]") 1).outcome = .ok branch ∧
      tokenize branch = .ok tokens ∧
      (draw (Setup.standard ()) wideShoots ("[" ++ "F" ++ "]" ++ "]") 1).outcome =
        .error (.branchUnderflow (0 + tokens.length)) := by
  have hreplacements : ∀ symbol replacement,
      (RuleTable.ofRules wideShoots).1.lookup symbol = some replacement →
        CodePoint.ofChar '(' ∉ replacement ∧ replacement.BracketsMatch := by
    have hentries : ∀ entry ∈ (RuleTable.ofRules wideShoots).1.entries,
        CodePoint.ofChar '(' ∉ entry.2 ∧ entry.2.BracketsMatch := by
      decide
    exact fun symbol replacement hlookup => hentries _ (RuleTable.mem_entries_of_lookup hlookup)
  exact ⟨(draw_branch_append (by decide +kernel) (by decide) (by decide) hreplacements (by decide)
      (by decide) (by decide) 1).1 _ (by decide +kernel),
    (draw_branch_append (by decide +kernel) (by decide) (by decide) hreplacements (by decide)
      (by decide) (by decide) 1).2 0 (by decide +kernel)⟩

end Lindenmayer
