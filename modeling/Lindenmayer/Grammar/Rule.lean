import Lindenmayer.Report

/-!
# Rules and rule tables

A rule replaces a symbol by a word. Rules are given in order, with keys of any length; a table holds
for each symbol the replacement of the first rule whose key begins with it.
-/

namespace Lindenmayer

/-- What a symbol is replaced by. The key should be that symbol alone. -/
structure Rule where
  key : Text
  replacement : Text
deriving DecidableEq

namespace Rule

/-- The rule with its key cut to one symbol. -/
def cut (rule : Rule) : Rule :=
  ⟨rule.key.take 1, rule.replacement⟩

/-- A key that has to be cut is warned about. -/
def notices (rule : Rule) : List Notice :=
  if 1 < rule.key.length then [.keyCut rule.key] else []

end Rule

/-- Replacements by symbol, in the order in which the symbols came up. -/
structure RuleTable where
  entries : List (CodePoint × Text)
  nodup : (entries.map Prod.fst).Nodup

namespace RuleTable

/-- The table without rules. -/
def empty : RuleTable :=
  ⟨[], List.nodup_nil⟩

/-- The symbols that have a rule. -/
def symbols (table : RuleTable) : List CodePoint :=
  table.entries.map Prod.fst

/-- The number of symbols that have a rule. -/
def size (table : RuleTable) : Nat :=
  table.entries.length

/-- The replacement of a symbol; without a rule there is none. -/
def lookup (table : RuleTable) (symbol : CodePoint) : Option Text :=
  table.entries.lookup symbol

/-- The replacement of a word that is one symbol with a rule. -/
def find? (table : RuleTable) : Text → Option Text
  | [symbol] => table.lookup symbol
  | _ => none

/-- A new symbol goes to the end of the table. -/
def insert (table : RuleTable) (symbol : CodePoint) (replacement : Text)
    (hfresh : symbol ∉ table.symbols) : RuleTable :=
  ⟨table.entries ++ [(symbol, replacement)], by
    rw [List.map_append]
    exact List.nodup_append.mpr ⟨table.nodup, by simp, fun before hbefore after hafter => by
      simp only [List.map_cons, List.map_nil, List.mem_singleton] at hafter
      exact fun heq => hfresh (hafter ▸ heq ▸ hbefore)⟩⟩

theorem isSome_lookup_iff (table : RuleTable) (symbol : CodePoint) :
    (table.lookup symbol).isSome ↔ symbol ∈ table.symbols := by
  rw [lookup, List.lookup_isSome_iff, symbols, List.mem_map]
  constructor
  · rintro ⟨entry, hentry, heq⟩
    exact ⟨entry, hentry, (beq_iff_eq.mp heq).symm⟩
  · rintro ⟨entry, hentry, heq⟩
    exact ⟨entry, hentry, beq_iff_eq.mpr heq.symm⟩

theorem lookup_eq_none (table : RuleTable) {symbol : CodePoint} (hfresh : symbol ∉ table.symbols) :
    table.lookup symbol = none := by
  rw [← Option.not_isSome_iff_eq_none, isSome_lookup_iff]
  exact hfresh

@[simp] theorem symbols_insert (table : RuleTable) (symbol : CodePoint) (replacement : Text)
    (hfresh : symbol ∉ table.symbols) :
    (table.insert symbol replacement hfresh).symbols = table.symbols ++ [symbol] := by
  simp [insert, symbols]

theorem lookup_insert_self (table : RuleTable) (symbol : CodePoint) (replacement : Text)
    (hfresh : symbol ∉ table.symbols) :
    (table.insert symbol replacement hfresh).lookup symbol = some replacement := by
  have hnone : table.entries.lookup symbol = none := table.lookup_eq_none hfresh
  simp [insert, lookup, List.lookup_append, hnone]

/-- A new symbol changes the replacement of no other one. -/
theorem lookup_insert_of_ne (table : RuleTable) (symbol other : CodePoint) (replacement : Text)
    (hfresh : symbol ∉ table.symbols) (hne : other ≠ symbol) :
    (table.insert symbol replacement hfresh).lookup other = table.lookup other := by
  have hother : (other == symbol) = false := by simp [hne]
  have hnone : List.lookup other [(symbol, replacement)] = none := by
    rw [List.lookup_cons, hother]
    rfl
  rw [lookup, insert, List.lookup_append, hnone, Option.or_none, lookup]

/-- Add a rule, unless it has no key or its symbol has a rule already. -/
def add (table : RuleTable) (rule : Rule) : RuleTable × List Notice :=
  match rule.key with
  | [] => (table, [.emptyKey rule.replacement])
  | symbol :: _ =>
      if hknown : symbol ∈ table.symbols then (table, rule.notices ++ [.duplicateRule symbol])
      else (table.insert symbol rule.replacement hknown, rule.notices)

/-- Add rules in order, and collect what is to be told about them. -/
def addAll : RuleTable → List Rule → RuleTable × List Notice
  | table, [] => (table, [])
  | table, rule :: rules =>
      let (next, notices) := table.add rule
      let (last, later) := next.addAll rules
      (last, notices ++ later)

/-- The table of some rules, with what is to be told about them. -/
def ofRules (rules : List Rule) : RuleTable × List Notice :=
  empty.addAll rules

/-- The text that shows a table in messages. -/
def description (table : RuleTable) : Text :=
  let entry (entry : CodePoint × Text) : Text :=
    Text.quoted [entry.1] ++ ": " ++ entry.2.quoted
  "RuleTable(\x7b" ++ Text.joinWith ", " (table.entries.map entry) ++ "\x7d)"

end RuleTable

end Lindenmayer
