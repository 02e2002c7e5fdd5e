import Lindenmayer.Proofs.Branch.Rewriting
import Lindenmayer.Proofs.Grammar.Parallel

/-!
# Idle rules

A grammar looks up the symbols of the words that it rewrites and no others. So two grammars have the
same generations if they agree on the symbols that one of them meets, and rules that come too late
or whose symbols are never met can be added anywhere.
-/

namespace Lindenmayer

variable {rules more earlier : List Rule} {start word : Text} {symbol : CodePoint} {count : ℕ}

namespace RuleTable

variable {first second : RuleTable}

theorem image_congr (hsame : first.lookup symbol = second.lookup symbol) :
    first.image symbol = second.image symbol := by
  rw [image, image, hsame]

/-- Tables that agree on the symbols of a word rewrite it alike. -/
theorem rewrite_congr (hsame : ∀ symbol ∈ word, first.lookup symbol = second.lookup symbol) :
    first.rewrite word = second.rewrite word :=
  List.flatMap_congr fun symbol hsymbol => image_congr (hsame symbol hsymbol)

/-- Tables that agree on what the first one rewrites have the same generations. -/
theorem generations_congr
    (hsame : ∀ index < count, ∀ symbol ∈ first.generation index word,
      first.lookup symbol = second.lookup symbol) :
    first.generations count word = second.generations count word := by
  induction count generalizing word with
  | zero => rfl
  | succ count ih =>
      -- The next word is the same, so what is met from there on was met by the first table.
      have hnext : first.rewrite word = second.rewrite word :=
        rewrite_congr (hsame 0 (Nat.succ_pos count))
      rw [generations, generations, ← hnext]
      have hlater := ih fun index hindex => hsame (index + 1) (Nat.succ_lt_succ hindex)
      exact congrArg (word :: ·) hlater

end RuleTable

/-- The second rules are the first ones with others added that are idle: they have no key, or their
symbol has a rule already, be it among the earlier ones, or it does not occur. -/
inductive AddsIdle (occurs : CodePoint → Prop) : List Rule → List Rule → List Rule → Prop where
  | nil {earlier : List Rule} : AddsIdle occurs earlier [] []
  | keep {earlier rules more : List Rule} (rule : Rule)
      (hmore : AddsIdle occurs (rule :: earlier) rules more) :
      AddsIdle occurs earlier (rule :: rules) (rule :: more)
  | add {earlier rules more : List Rule} (rule : Rule)
      (hidle : ∀ symbol, rule.key.head? = some symbol →
        (∃ other ∈ earlier, other.key.head? = some symbol) ∨ ¬ occurs symbol)
      (hmore : AddsIdle occurs (rule :: earlier) rules more) :
      AddsIdle occurs earlier rules (rule :: more)

/-- Idle rules win for no symbol that occurs. -/
theorem AddsIdle.winning?_eq {occurs : CodePoint → Prop}
    (hadds : AddsIdle occurs earlier rules more) (hoccurs : occurs symbol)
    (hearlier : ∀ other ∈ earlier, other.key.head? ≠ some symbol) :
    Rule.winning? rules symbol = Rule.winning? more symbol := by
  induction hadds with
  | nil => rfl
  | keep rule _ ih =>
      rw [Rule.winning?_cons, Rule.winning?_cons]
      split
      next => rfl
      next hother => exact ih (List.forall_mem_cons.mpr ⟨hother, hearlier⟩)
  | add rule hidle _ ih =>
      have hother : rule.key.head? ≠ some symbol := by
        intro hkey
        rcases hidle symbol hkey with ⟨other, hmem, hsame⟩ | hnever
        · exact hearlier other hmem hsame
        · exact hnever hoccurs
      rw [Rule.winning?_cons, if_neg hother]
      exact ih (List.forall_mem_cons.mpr ⟨hother, hearlier⟩)

namespace Grammar

variable {first second : Grammar}

/-- The symbols of the generations before the last one, which are looked up. -/
def Meets (grammar : Grammar) (start : Text) (count : ℕ) (symbol : CodePoint) : Prop :=
  ∃ index < count, ∃ word, (grammar.grow start index).outcome = .ok word ∧ symbol ∈ word

theorem meets_iff :
    first.Meets start count symbol ↔
      ∃ index < count, symbol ∈ first.table.generation index start := by
  have hgrow : ∀ index : ℕ, (first.grow start index).outcome =
      .ok (first.table.generation index start) := fun index => first.outcome_grow start index
  simp [Meets, hgrow]

/-- Grammars that agree on the symbols that the first one meets have the same generations. -/
theorem outcome_unfold_congr
    (hsame : ∀ symbol, first.Meets start count symbol →
      first.table.lookup symbol = second.table.lookup symbol) :
    ∃ words, words.length = count + 1 ∧ (first.unfold start count).outcome = .ok words ∧
      (second.unfold start count).outcome = .ok words := by
  refine ⟨first.table.generations count start, RuleTable.length_generations _ _ _,
    first.outcome_unfold start count, ?_⟩
  rw [RuleTable.generations_congr fun index hindex symbol hsymbol =>
    hsame symbol (meets_iff.mpr ⟨index, hindex, hsymbol⟩)]
  exact second.outcome_unfold start count

/-- Two grammars have the same generations if they agree on the symbols that the first one meets, or
if the second one has only idle rules added to those of the first. -/
theorem idle_rules_change_nothing
    (hsame : (∀ symbol, first.Meets start count symbol →
        first.table.lookup symbol = second.table.lookup symbol) ∨
      ∃ rules more, first.Spells rules ∧ second.Spells more ∧
        AddsIdle (first.Meets start count) [] rules more) :
    ∃ words, words.length = count + 1 ∧ (first.unfold start count).outcome = .ok words ∧
      (second.unfold start count).outcome = .ok words := by
  rcases hsame with hsame | ⟨rules, more, hrules, hmore, hadds⟩
  · exact outcome_unfold_congr hsame
  · refine outcome_unfold_congr fun symbol hmeets => ?_
    rw [hrules.table_eq, hmore.table_eq, RuleTable.lookup_ofRules, RuleTable.lookup_ofRules]
    exact hadds.winning?_eq hmeets nofun

/-- The rule of a tree that forks. -/
def forking : Rule :=
  ⟨"A", "[&(30)!\"F A][^(30)/(120)!\"F A]M(1)"⟩

theorem forking_idle_rules :
    let first := Grammar.listed [.rule forking]
    let second := Grammar.listed
      [.pair "B" "this rule is never used", .rule forking, .pair "A" "F"]
    AddsIdle (first.Meets "F(2)A" 5) [] [forking]
        [⟨"B", "this rule is never used"⟩, forking, ⟨"A", "F"⟩] ∧
      ∃ words, words.length = 6 ∧ (first.unfold "F(2)A" 5).outcome = .ok words ∧
        (second.unfold "F(2)A" 5).outcome = .ok words := by
  intro first second
  have hunmet : ¬ first.Meets "F(2)A" 5 'B' := by
    rw [meets_iff]
    rintro ⟨index, -, hmem⟩
    refine RuleTable.notMem_generation ?_ (by decide) index hmem
    intro key replacement hkey
    have hentries : ∀ entry ∈ first.table.entries, CodePoint.ofChar 'B' ∉ entry.2 := by decide
    exact hentries _ (RuleTable.mem_entries_of_lookup hkey)
  have hadds : AddsIdle (first.Meets "F(2)A" 5) [] [forking]
      [⟨"B", "this rule is never used"⟩, forking, ⟨"A", "F"⟩] := by
    refine .add _ ?_ (.keep _ (.add _ ?_ .nil))
    · rintro symbol ⟨⟩
      exact .inr hunmet
    · rintro symbol ⟨⟩
      exact .inl ⟨forking, List.mem_cons_self, rfl⟩
  exact ⟨hadds, @idle_rules_change_nothing _ 5 first second
    (.inr ⟨_, _, .listed _, .listed _, hadds⟩)⟩

end Grammar

end Lindenmayer
