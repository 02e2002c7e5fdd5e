import Lindenmayer.Grammar.Generation

/-!
# Parallel rewriting

In a list of rules the first rule for a symbol wins. Whether the rules are listed, as such or as
pairs, or already in a table, one generation replaces all symbols of a word at once by what their
winning rules say. So the parts of a word grow apart from each other, and a word can be grown
further from any of its generations.
-/

namespace Lindenmayer

namespace Rule

/-- The replacement of the first rule whose key begins with a symbol. -/
def winning? (rules : List Rule) (symbol : CodePoint) : Option Text :=
  (rules.find? fun rule => rule.key.head? = some symbol).map Rule.replacement

/-- What a symbol becomes under some rules; without a winning rule it stays. -/
def imageUnder (rules : List Rule) (symbol : CodePoint) : Text :=
  (winning? rules symbol).getD [symbol]

theorem winning?_cons (rule : Rule) (rules : List Rule) (symbol : CodePoint) :
    winning? (rule :: rules) symbol =
      if rule.key.head? = some symbol then some rule.replacement else winning? rules symbol := by
  rw [winning?, List.find?_cons]
  by_cases hkey : rule.key.head? = some symbol
  · simp [hkey]
  · simp [hkey, winning?]

end Rule

namespace RuleTable

/-- A rule that is added counts for its own symbol only, and only if that has no rule yet. -/
theorem lookup_add (table : RuleTable) (rule : Rule) (symbol : CodePoint) :
    (table.add rule).1.lookup symbol =
      (table.lookup symbol).or
        (if rule.key.head? = some symbol then some rule.replacement else none) := by
  obtain ⟨key, replacement⟩ := rule
  cases key with
  | nil => simp [add]
  | cons first rest =>
      simp only [add, List.head?_cons, Option.some.injEq]
      split
      next hknown =>
        -- The rule comes too late, so for its own symbol the earlier replacement is kept.
        by_cases hfirst : first = symbol
        · have hsome := (table.isSome_lookup_iff symbol).mpr (hfirst ▸ hknown)
          exact (Option.or_of_isSome hsome).symm
        · rw [if_neg hfirst, Option.or_none]
      next hfresh =>
        by_cases hfirst : first = symbol
        · subst hfirst
          rw [lookup_insert_self, table.lookup_eq_none hfresh, Option.none_or, if_pos rfl]
        · rw [lookup_insert_of_ne table first symbol replacement hfresh (Ne.symm hfirst),
            if_neg hfirst, Option.or_none]

theorem lookup_addAll (table : RuleTable) (rules : List Rule) (symbol : CodePoint) :
    (table.addAll rules).1.lookup symbol =
      (table.lookup symbol).or (Rule.winning? rules symbol) := by
  induction rules generalizing table with
  | nil => exact Option.or_none.symm
  | cons rule rules ih =>
      rw [addAll, ih, lookup_add, Option.or_assoc, Rule.winning?_cons]
      congr 1
      split <;> rfl

/-- A table holds the winning replacements of its rules. -/
theorem lookup_ofRules (rules : List Rule) (symbol : CodePoint) :
    (ofRules rules).1.lookup symbol = Rule.winning? rules symbol :=
  lookup_addAll empty rules symbol

theorem image_ofRules (rules : List Rule) (symbol : CodePoint) :
    (ofRules rules).1.image symbol = Rule.imageUnder rules symbol := by
  rw [image, lookup_ofRules, Rule.imageUnder]

end RuleTable

namespace Grammar

/-- The table by which a grammar rewrites. -/
def table : Grammar → RuleTable
  | .listed given => (RuleTable.ofRules (given.map GivenRule.toRule)).1
  | .tabled table => table

/-- The ways to give some rules: one by one, each as such or as a pair, or as a table of them. -/
inductive Spells : Grammar → List Rule → Prop where
  | listed (given : List GivenRule) : Spells (.listed given) (given.map GivenRule.toRule)
  | tabled (rules : List Rule) : Spells (.tabled (RuleTable.ofRules rules).1) rules

variable {grammar : Grammar} {rules : List Rule}

theorem Spells.table_eq (hspells : grammar.Spells rules) :
    grammar.table = (RuleTable.ofRules rules).1 := by
  cases hspells <;> rfl

theorem outcome_grow (grammar : Grammar) (start : Text) (count : Int) :
    (grammar.grow start count).outcome = growWith grammar.table start count := by
  cases grammar <;> cases count <;> rfl

theorem outcome_unfold (grammar : Grammar) (start : Text) (count : Int) :
    (grammar.unfold start count).outcome = unfoldWith grammar.table start count := by
  cases grammar <;> cases count <;> rfl

/-- What it means that a grammar rewrites all symbols of a word at once by the rules that win. -/
structure RewritesBy (grammar : Grammar) (rules : List Rule) : Prop where
  /-- In the next generation each symbol is replaced by its image. -/
  next : ∀ word : Text, (grammar.grow word 1).outcome = .ok (word.flatMap (Rule.imageUnder rules))
  /-- The parts of a word grow apart from each other. -/
  append : ∀ (first second : Text) (count : Nat), ∃ grownFirst grownSecond,
    (grammar.grow first count).outcome = .ok grownFirst ∧
      (grammar.grow second count).outcome = .ok grownSecond ∧
        (grammar.grow (first ++ second) count).outcome = .ok (grownFirst ++ grownSecond)
  /-- A word can be grown further from any of its generations. -/
  add : ∀ (word : Text) (early late : Nat), ∃ middle last,
    (grammar.grow word early).outcome = .ok middle ∧
      (grammar.grow middle late).outcome = .ok last ∧
        (grammar.grow word (early + late)).outcome = .ok last
  /-- All generations are the word itself and what is grown from it, up to the last one. -/
  generations : ∀ (word : Text) (count : Nat), ∃ words,
    (grammar.unfold word count).outcome = .ok words ∧ words.length = count + 1 ∧
      (∀ index ≤ count,
        words[index]?.map Except.ok = some (grammar.grow word index).outcome) ∧
        words.getLast?.map Except.ok = some (grammar.grow word count).outcome
  /-- It makes no difference in which way the rules are given. -/
  alike : ∀ (word : Text) (count : Int),
    (grammar.grow word count).outcome = (Lindenmayer.grow rules word count).outcome ∧
      (grammar.unfold word count).outcome = (Lindenmayer.unfold rules word count).outcome
  /-- There are no generations before the first, and nothing is told or yielded. -/
  negative : ∀ (word : Text) (count : Int), count < 0 →
    grammar.grow word count = ⟨[], .error .negativeGenerations⟩ ∧
      grammar.unfold word count = ⟨[], .error .negativeGenerations⟩

theorem negative_refused (grammar : Grammar) (word : Text) {count : Int} (hcount : count < 0) :
    grammar.grow word count = ⟨[], .error .negativeGenerations⟩ ∧
      grammar.unfold word count = ⟨[], .error .negativeGenerations⟩ := by
  cases count with
  | ofNat count => exact absurd hcount (Int.not_lt.mpr (Int.natCast_nonneg count))
  | negSucc count => cases grammar <;> exact ⟨rfl, rfl⟩

theorem generations_grow (grammar : Grammar) (word : Text) {count index : Nat}
    (hindex : index ≤ count) :
    (grammar.table.generations count word)[index]?.map Except.ok =
      some (grammar.grow word index).outcome := by
  rw [RuleTable.getElem?_generations _ _ _ _ hindex, outcome_grow]
  rfl

/-- Rules rewrite in parallel, in whatever way they are given. -/
theorem Spells.rewrites_in_parallel (hspells : grammar.Spells rules) :
    grammar.RewritesBy rules := by
  have hgrow : ∀ (word : Text) (count : Nat),
      (grammar.grow word count).outcome = .ok (grammar.table.generation count word) :=
    fun word count => grammar.outcome_grow word count
  exact {
    next := fun word => by
      have himage : grammar.table.image = Rule.imageUnder rules := by
        funext symbol
        rw [hspells.table_eq, RuleTable.image_ofRules]
      rw [← himage]
      exact hgrow word 1
    append := fun first second count => by
      refine ⟨_, _, hgrow first count, hgrow second count, ?_⟩
      rw [hgrow, RuleTable.generation_append]
    add := fun word early late => by
      refine ⟨_, _, hgrow word early, hgrow _ late, ?_⟩
      rw [← RuleTable.generation_add]
      exact hgrow word (early + late)
    generations := fun word count => by
      refine ⟨_, grammar.outcome_unfold word count, RuleTable.length_generations _ _ _,
        fun index hindex => grammar.generations_grow word hindex, ?_⟩
      rw [List.getLast?_eq_getElem?, RuleTable.length_generations]
      exact grammar.generations_grow word (Nat.le_refl count)
    alike := fun word count => by
      rw [outcome_grow, outcome_unfold, hspells.table_eq]
      cases count <;> exact ⟨rfl, rfl⟩
    negative := fun word count hcount => grammar.negative_refused word hcount }

/-- A rule in two ways, with one after it that comes too late and one without a key. -/
def lateRules : List GivenRule :=
  [.pair "FX" "F+F", .rule ⟨"F", "F"⟩, .pair "" "X", .rule ⟨"X", "FX"⟩]

theorem lateRules_rewrite_in_parallel :
    ((Grammar.listed lateRules).grow "FX" 2).outcome = .ok "F+F+F+FF+FFX" ∧
      (Grammar.listed lateRules).RewritesBy (lateRules.map GivenRule.toRule) ∧
      (Grammar.tabled (RuleTable.ofRules (lateRules.map GivenRule.toRule)).1).RewritesBy
        (lateRules.map GivenRule.toRule) :=
  ⟨rfl, Spells.rewrites_in_parallel (.listed lateRules),
    Spells.rewrites_in_parallel (.tabled _)⟩

end Grammar

end Lindenmayer
