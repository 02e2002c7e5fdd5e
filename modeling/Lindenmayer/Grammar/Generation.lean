import Lindenmayer.Fault
import Lindenmayer.Grammar.Rule

/-!
# Generations

Rewriting replaces all symbols of a word at once. The generations of a start word are the word
itself and what repeated rewriting makes of it.
-/

namespace Lindenmayer

namespace RuleTable

/-- What a symbol becomes in the next generation; without a rule it stays. -/
def image (table : RuleTable) (symbol : CodePoint) : Text :=
  (table.lookup symbol).getD [symbol]

/-- The next generation of a word. -/
def rewrite (table : RuleTable) (word : Text) : Text :=
  word.flatMap table.image

/-- The word that `count` rewritings make of a word. -/
def generation (table : RuleTable) : Nat → Text → Text
  | 0, word => word
  | count + 1, word => table.generation count (table.rewrite word)

/-- A word and its generations up to the one after `count` rewritings. -/
def generations (table : RuleTable) : Nat → Text → List Text
  | 0, word => [word]
  | count + 1, word => word :: table.generations count (table.rewrite word)

@[simp] theorem rewrite_nil (table : RuleTable) : table.rewrite [] = [] :=
  rfl

@[simp] theorem rewrite_cons (table : RuleTable) (symbol : CodePoint) (word : Text) :
    table.rewrite (symbol :: word) = table.image symbol ++ table.rewrite word :=
  rfl

/-- Rewriting can be done part by part. -/
@[simp] theorem rewrite_append (table : RuleTable) (first second : Text) :
    table.rewrite (first ++ second) = table.rewrite first ++ table.rewrite second :=
  List.flatMap_append

/-- The generations of a word can be followed part by part. -/
theorem generation_append (table : RuleTable) (count : Nat) (first second : Text) :
    table.generation count (first ++ second) =
      table.generation count first ++ table.generation count second := by
  induction count generalizing first second with
  | zero => rfl
  | succ count ih =>
      simp only [generation]
      rw [rewrite_append, ih]

/-- Later generations start from any earlier one. -/
theorem generation_add (table : RuleTable) (early late : Nat) (word : Text) :
    table.generation (early + late) word = table.generation late (table.generation early word) := by
  induction early generalizing word with
  | zero => rw [Nat.zero_add]; rfl
  | succ early ih =>
      rw [Nat.succ_add]
      exact ih (table.rewrite word)

/-- The next generation is the last one rewritten. -/
theorem generation_succ (table : RuleTable) (count : Nat) (word : Text) :
    table.generation (count + 1) word = table.rewrite (table.generation count word) :=
  table.generation_add count 1 word

@[simp] theorem length_generations (table : RuleTable) (count : Nat) (word : Text) :
    (table.generations count word).length = count + 1 := by
  induction count generalizing word with
  | zero => rfl
  | succ count ih => exact congrArg Nat.succ (ih (table.rewrite word))

/-- The generations in a row are the ones that are reached one by one. -/
theorem getElem?_generations (table : RuleTable) (count index : Nat) (word : Text)
    (hindex : index ≤ count) :
    (table.generations count word)[index]? = some (table.generation index word) := by
  induction count generalizing index word with
  | zero =>
      obtain rfl := Nat.le_zero.mp hindex
      rfl
  | succ count ih =>
      cases index with
      | zero => rfl
      | succ index => exact ih index (table.rewrite word) (Nat.le_of_succ_le_succ hindex)

end RuleTable

/-- A number of generations that is not negative. -/
def generationCount (count : Int) : Except Fault Nat :=
  match count with
  | .ofNat count => .ok count
  | .negSucc _ => .error .negativeGenerations

/-- The table of some rules as a report, which has no fault. -/
def tableOf (rules : List Rule) : Report Fault RuleTable :=
  let (table, notices) := RuleTable.ofRules rules
  ⟨notices, .ok table⟩

/-- The last of `count` generations under a table. -/
def growWith (table : RuleTable) (start : Text) (count : Int) : Except Fault Text :=
  (generationCount count).map (table.generation · start)

/-- All of `count` generations under a table, the start word first. -/
def unfoldWith (table : RuleTable) (start : Text) (count : Int) : Except Fault (List Text) :=
  (generationCount count).map (table.generations · start)

/-- The last of `count` generations under some rules. A negative count is refused before the rules
are looked at. -/
def grow (rules : List Rule) (start : Text) (count : Int) : Report Fault Text := do
  let count ← Report.ofExcept (generationCount count)
  let table ← tableOf rules
  return table.generation count start

/-- All of `count` generations under some rules; a negative count is refused first here too. -/
def unfold (rules : List Rule) (start : Text) (count : Int) : Report Fault (List Text) := do
  let count ← Report.ofExcept (generationCount count)
  let table ← tableOf rules
  return table.generations count start

/-- A rule as it is given: as such, or as a pair of its key and its replacement. -/
inductive GivenRule where
  | rule (rule : Rule)
  | pair (key replacement : Text)
deriving DecidableEq

/-- The rule that is given, in either form. -/
def GivenRule.toRule : GivenRule → Rule
  | .rule given => given
  | .pair key replacement => ⟨key, replacement⟩

/-- What words are grown with: rules in order, or a table that was made of some. -/
inductive Grammar where
  | listed (given : List GivenRule)
  | tabled (table : RuleTable)

namespace Grammar

/-- The last of `count` generations. A table was told about when it was made. -/
def grow (grammar : Grammar) (start : Text) (count : Int) : Report Fault Text :=
  match grammar with
  | .listed given => Lindenmayer.grow (given.map GivenRule.toRule) start count
  | .tabled table => .ofExcept (growWith table start count)

/-- All of `count` generations, the start word first. -/
def unfold (grammar : Grammar) (start : Text) (count : Int) : Report Fault (List Text) :=
  match grammar with
  | .listed given => Lindenmayer.unfold (given.map GivenRule.toRule) start count
  | .tabled table => .ofExcept (unfoldWith table start count)

end Grammar

end Lindenmayer
