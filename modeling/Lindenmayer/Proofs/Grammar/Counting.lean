import Lindenmayer.Proofs.Drawing
import Lindenmayer.Proofs.Grammar.Parallel
import Lindenmayer.Proofs.Token.Brackets

/-!
# Growth of a grammar

How often a symbol occurs in the next generation depends only on how often each symbol occurs in
this one. Without parentheses every symbol is read alone, so a drawing has as many segments as there
are steps forward in the last generation, and its size is known before it is drawn.
-/

namespace Lindenmayer

namespace RuleTable

variable (table : RuleTable)

/-- Every occurrence of a symbol brings the occurrences of its image. -/
theorem count_rewrite (word : Text) (symbol : CodePoint) :
    (table.rewrite word).count symbol =
      ∑ other ∈ word.toFinset, word.count other * (table.image other).count symbol := by
  rw [rewrite, List.count_flatMap, Finset.sum_list_map_count]
  rfl

/-- Words with the same symbols in another order grow to such words. -/
theorem perm_generation {first second : Text} (hperm : first.Perm second) (count : Nat) :
    (table.generation count first).Perm (table.generation count second) := by
  induction count generalizing first second with
  | zero => exact hperm
  | succ count ih => exact ih (hperm.flatMap_right table.image)

end RuleTable

/-- Without parentheses the steps forward are the letters for them. -/
theorem forwardCount_tokenize {word : Text} (hword : CodePoint.ofChar '(' ∉ word)
    {tokens : List Token} (htokens : tokenize word = .ok tokens) :
    forwardCount tokens = word.count (CodePoint.ofChar 'F') := by
  rw [tokenize_of_notMem hword] at htokens
  obtain rfl := Except.ok.inj htokens
  have hsymbol : (CodePoint.ofChar 'F').isSymbol = true := by decide
  calc forwardCount ((word.filter CodePoint.isSymbol).map fun symbol => ⟨[symbol], none⟩)
      = ((word.filter CodePoint.isSymbol).map fun symbol => ([symbol] : Text)).count
          [CodePoint.ofChar 'F'] := by
        rw [forwardCount_eq_count, List.map_map]
        rfl
    _ = (word.filter CodePoint.isSymbol).count (CodePoint.ofChar 'F') :=
        Text.count_singletons _ _
    _ = word.count (CodePoint.ofChar 'F') := List.count_filter hsymbol

/-- What it means that the counts of a grammar follow from those of the start word. -/
structure CountsFollow (rules : List Rule) (start : Text) : Prop where
  /-- A symbol occurs in the next generation as often as all symbols of this one together bring it,
  each by its winning replacement, or by itself if it has none. -/
  next : ∀ count : Nat, ∃ word later, (grow rules start count).outcome = .ok word ∧
    (grow rules start (count + 1 : Nat)).outcome = .ok later ∧
      ∀ symbol, later.count symbol =
        ∑ other ∈ word.toFinset, word.count other *
          ((Rule.winning? rules other).getD [other]).count symbol
  /-- The order of the symbols of the start word does not matter for counts and lengths. -/
  order : ∀ other : Text, (∀ symbol, other.count symbol = start.count symbol) →
    ∀ count : Nat, ∃ word grown, (grow rules start count).outcome = .ok word ∧
      (grow rules other count).outcome = .ok grown ∧
        (∀ symbol, grown.count symbol = word.count symbol) ∧ grown.length = word.length
  /-- A drawing has as many segments as there are steps forward in the last generation. -/
  segments : ∀ {μ : Type} (setup : Setup μ) (count : Int) (segments : List (Segment μ)),
    (draw setup rules start count).outcome = .ok segments →
      ∃ word, (grow rules start count).outcome = .ok word ∧
        segments.length = word.count (CodePoint.ofChar 'F')

/-- Without parentheses the growth of a grammar can be counted, and so can its drawings. -/
theorem counts_follow {rules : List Rule} {start : Text} (hstart : CodePoint.ofChar '(' ∉ start)
    (hreplacements : ∀ symbol replacement, Rule.winning? rules symbol = some replacement →
      CodePoint.ofChar '(' ∉ replacement) : CountsFollow rules start where
  next count := by
    refine ⟨_, _, outcome_grow rules start count, outcome_grow rules start (count + 1),
      fun symbol => ?_⟩
    simp only [RuleTable.generation_succ, RuleTable.count_rewrite, RuleTable.image_ofRules]
    rfl
  order other hother count := by
    have hperm := (RuleTable.ofRules rules).1.perm_generation
      (List.perm_iff_count.mpr hother) count
    exact ⟨_, _, outcome_grow rules start count, outcome_grow rules other count,
      List.perm_iff_count.mp hperm, hperm.length_eq⟩
  segments setup count segments hdrawn := by
    cases count with
    | negSucc count => exact nomatch hdrawn
    | ofNat count =>
        refine ⟨_, outcome_grow rules start count, ?_⟩
        obtain ⟨tokens, htokens, hsegments⟩ := draw_eq_ok.mp hdrawn
        have hplain := RuleTable.notMem_generation (fun key replacement hkey =>
          hreplacements key replacement (RuleTable.lookup_ofRules rules key ▸ hkey)) hstart count
        rw [length_interpret hsegments, forwardCount_tokenize hplain htokens]

/-- A step that becomes a step with a branch and a bud, and a bud that becomes a step. -/
def buddingSteps : List Rule := [⟨"F", "F[F]X"⟩, ⟨"X", "F"⟩, ⟨"F", "(F"⟩]

theorem buddingSteps_counts_follow :
    (draw (Setup.standard ()) buddingSteps "FX" 2).outcome.map List.length = .ok 7 ∧
      CountsFollow buddingSteps "FX" := by
  refine ⟨rfl, counts_follow (by decide) fun symbol replacement hwinning => ?_⟩
  rw [← RuleTable.lookup_ofRules] at hwinning
  have hentries : ∀ entry ∈ (RuleTable.ofRules buddingSteps).1.entries,
      CodePoint.ofChar '(' ∉ entry.2 := by
    decide
  exact hentries _ (RuleTable.mem_entries_of_lookup hwinning)

end Lindenmayer
