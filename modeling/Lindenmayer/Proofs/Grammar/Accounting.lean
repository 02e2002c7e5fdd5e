import Lindenmayer.Proofs.Grammar.Parallel
import Mathlib.Data.List.Basic
import Mathlib.Data.List.Induction

/-!
# What becomes of each rule

A table keeps the first rule for each symbol. Every rule of the list that it is made of is accounted
for: it is the first one for its symbol, or it has no key, or it comes too late, and in the last two
cases it is told about. Apart from that it is told about every key that has to be cut.
-/

namespace Lindenmayer

theorem eraseDups_concat {α : Type} [BEq α] [LawfulBEq α] (items : List α) (item : α) :
    (items ++ [item]).eraseDups =
      if item ∈ items then items.eraseDups else items.eraseDups ++ [item] := by
  rw [List.eraseDups_append]
  split
  next hmem => simp [List.removeAll, hmem]
  next hnew => simp [List.removeAll, hnew, List.eraseDups_cons]

namespace Notice

/-- The key that a notice says to be too long. -/
def cutKey? : Notice → Option Text
  | keyCut key => some key
  | _ => none

/-- The replacement that a notice says to have no key. -/
def ignoredReplacement? : Notice → Option Text
  | emptyKey replacement => some replacement
  | _ => none

/-- The symbol that a notice says to have a rule already. -/
def duplicateSymbol? : Notice → Option CodePoint
  | duplicateRule symbol => some symbol
  | _ => none

end Notice

namespace Rule

/-- The symbols that the keys of some rules begin with. -/
def firstSymbols (rules : List Rule) : List CodePoint :=
  rules.filterMap fun rule => rule.key.head?

/-- What is told about a rule that comes after some others: that its key is empty or too long, and
that one of the others has the same symbol. -/
def toldAfter (earlier : List Rule) (rule : Rule) : List Notice :=
  (if rule.key = [] then [.emptyKey rule.replacement] else []) ++
    (if 1 < rule.key.length then [.keyCut rule.key] else []) ++
    (rule.key.head?.toList.filter fun symbol =>
      ∃ other ∈ earlier, other.key.head? = some symbol).map .duplicateRule

/-- What is told about some rules, one after the other. -/
def told (rules : List Rule) : List Notice :=
  (rules.mapIdx fun index rule => rule.toldAfter (rules.take index)).flatten

end Rule

namespace RuleTable

variable {table : RuleTable} {rules : List Rule} {rule : Rule}

/-- What adding a rule can do: nothing if it has no key or comes too late, else its symbol is
new. -/
theorem add_cases (table : RuleTable) (rule : Rule) :
    (rule.key = [] ∧ table.add rule = (table, [.emptyKey rule.replacement])) ∨
      ∃ symbol rest, rule.key = symbol :: rest ∧
        ((symbol ∈ table.symbols ∧
            table.add rule = (table, rule.notices ++ [.duplicateRule symbol])) ∨
          ∃ hfresh : symbol ∉ table.symbols,
            table.add rule = (table.insert symbol rule.replacement hfresh, rule.notices)) := by
  obtain ⟨key, replacement⟩ := rule
  cases key with
  | nil => exact .inl ⟨rfl, rfl⟩
  | cons symbol rest =>
      refine .inr ⟨symbol, rest, rfl, ?_⟩
      by_cases hknown : symbol ∈ table.symbols
      · exact .inl ⟨hknown, dif_pos hknown⟩
      · exact .inr ⟨hknown, dif_neg hknown⟩

theorem addAll_concat (table : RuleTable) (rules : List Rule) (rule : Rule) :
    table.addAll (rules ++ [rule]) = (((table.addAll rules).1.add rule).1,
      (table.addAll rules).2 ++ ((table.addAll rules).1.add rule).2) := by
  induction rules generalizing table with
  | nil => simp [addAll]
  | cons first rules ih => simp [addAll, ih]

/-- A last rule is added to the table of the rules before it. -/
theorem ofRules_concat (rules : List Rule) (rule : Rule) :
    ofRules (rules ++ [rule]) = (((ofRules rules).1.add rule).1,
      (ofRules rules).2 ++ ((ofRules rules).1.add rule).2) :=
  addAll_concat empty rules rule

theorem firstSymbols_concat (rules : List Rule) (rule : Rule) :
    Rule.firstSymbols (rules ++ [rule]) = Rule.firstSymbols rules ++ rule.key.head?.toList := by
  rw [Rule.firstSymbols, List.filterMap_append]
  congr 1

/-- The symbols of a table are the first symbols of the keys, in the order in which they come up. -/
theorem symbols_ofRules (rules : List Rule) :
    (ofRules rules).1.symbols = (Rule.firstSymbols rules).eraseDups := by
  induction rules using List.reverseRecOn with
  | nil => rfl
  | append_singleton rules rule ih =>
      rw [ofRules_concat, firstSymbols_concat]
      rcases (ofRules rules).1.add_cases rule with
        ⟨hkey, hadd⟩ | ⟨symbol, rest, hkey, ⟨hknown, hadd⟩ | ⟨hfresh, hadd⟩⟩
      · rw [hadd, hkey, List.head?_nil, Option.toList_none, List.append_nil, ih]
      · have hmem := hknown
        rw [ih, List.mem_eraseDups] at hmem
        rw [hadd, hkey, List.head?_cons, Option.toList_some, eraseDups_concat, if_pos hmem, ih]
      · have hnew := hfresh
        rw [ih, List.mem_eraseDups] at hnew
        rw [hadd, hkey, List.head?_cons, Option.toList_some, eraseDups_concat, if_neg hnew,
          symbols_insert, ih]

theorem mem_symbols_ofRules {symbol : CodePoint} :
    symbol ∈ (ofRules rules).1.symbols ↔ ∃ other ∈ rules, other.key.head? = some symbol := by
  rw [symbols_ofRules, List.mem_eraseDups, Rule.firstSymbols, List.mem_filterMap]

/-- What is told when a rule is added after some others. -/
theorem told_add (earlier : List Rule) (rule : Rule) :
    ((ofRules earlier).1.add rule).2 = rule.toldAfter earlier := by
  rw [Rule.toldAfter]
  simp only [← mem_symbols_ofRules]
  rcases (ofRules earlier).1.add_cases rule with
    ⟨hkey, hadd⟩ | ⟨symbol, rest, hkey, ⟨hknown, hadd⟩ | ⟨hfresh, hadd⟩⟩
  · simp [hadd, hkey]
  · simp [hadd, hkey, hknown, Rule.notices]
  · simp [hadd, hkey, hfresh, Rule.notices]

theorem told_addAll (earlier rules : List Rule) :
    ((ofRules earlier).1.addAll rules).2 =
      (rules.mapIdx fun index rule => rule.toldAfter (earlier ++ rules.take index)).flatten := by
  induction rules generalizing earlier with
  | nil => rfl
  | cons rule rules ih =>
      have hnext : ((ofRules earlier).1.add rule).1 = (ofRules (earlier ++ [rule])).1 := by
        rw [ofRules_concat]
      rw [addAll, List.mapIdx_cons, List.flatten_cons, List.take_zero, List.append_nil]
      dsimp only
      rw [told_add, hnext, ih]
      simp only [List.append_assoc, List.singleton_append, List.take_succ_cons]

/-- What is told about rules is told about one after the other. -/
theorem told_ofRules (rules : List Rule) : (ofRules rules).2 = Rule.told rules :=
  told_addAll [] rules

theorem told_concat (rules : List Rule) (rule : Rule) :
    (ofRules (rules ++ [rule])).2 = (ofRules rules).2 ++ rule.toldAfter rules := by
  rw [ofRules_concat, told_add]

end RuleTable

namespace Rule

variable {rules earlier : List Rule} {rule : Rule}

theorem cutKeys_toldAfter (earlier : List Rule) (rule : Rule) :
    (rule.toldAfter earlier).filterMap Notice.cutKey? = [rule.key].filter (1 < ·.length) := by
  rw [toldAfter, List.filterMap_append, List.filterMap_append, List.filterMap_map]
  split <;> split <;> simp_all [Notice.cutKey?, Function.comp_def]

theorem ignoredReplacements_toldAfter (earlier : List Rule) (rule : Rule) :
    (rule.toldAfter earlier).filterMap Notice.ignoredReplacement? =
      ([rule].filter (·.key = [])).map replacement := by
  rw [toldAfter, List.filterMap_append, List.filterMap_append, List.filterMap_map]
  split <;> split <;> simp_all [Notice.ignoredReplacement?, Function.comp_def]

theorem duplicateSymbols_toldAfter (earlier : List Rule) (rule : Rule) :
    (rule.toldAfter earlier).filterMap Notice.duplicateSymbol? =
      rule.key.head?.toList.filter fun symbol =>
        ∃ other ∈ earlier, other.key.head? = some symbol := by
  rw [toldAfter, List.filterMap_append, List.filterMap_append, List.filterMap_map]
  split <;> split <;> simp_all [Notice.duplicateSymbol?, Function.comp_def]

end Rule

namespace RuleTable

variable {rules : List Rule}

/-- The table finds a replacement for a word exactly if this is one symbol, and it is that of the
first rule whose key begins with the symbol. -/
theorem find?_ofRules_eq_some {word replacement : Text} :
    (ofRules rules).1.find? word = some replacement ↔
      ∃ symbol before rule after, word = [symbol] ∧ rules = before ++ rule :: after ∧
        rule.key.head? = some symbol ∧ rule.replacement = replacement ∧
          ∀ earlier ∈ before, earlier.key.head? ≠ some symbol := by
  match word with
  | [] => simp [find?]
  | _ :: _ :: _ => simp [find?]
  | [symbol] =>
      simp only [find?, lookup_ofRules, Rule.winning?, Option.map_eq_some_iff,
        List.find?_eq_some_iff_append, decide_eq_true_eq, Bool.not_eq_true',
        decide_eq_false_iff_not]
      constructor
      · rintro ⟨rule, ⟨hkey, before, after, hrules, hbefore⟩, hreplacement⟩
        exact ⟨symbol, before, rule, after, rfl, hrules, hkey, hreplacement, hbefore⟩
      · rintro ⟨_, before, rule, after, ⟨⟩, hrules, hkey, hreplacement, hbefore⟩
        exact ⟨rule, ⟨hkey, before, after, hrules, hbefore⟩, hreplacement⟩

/-- The words with a replacement are the symbols of the table. -/
theorem mem_symbols_iff_find? (table : RuleTable) (word : Text) :
    word ∈ table.symbols.map ([·]) ↔ table.find? word ≠ none := by
  match word with
  | [] => simp [find?]
  | _ :: _ :: _ => simp [find?]
  | [symbol] =>
      rw [find?, ne_eq, ← Option.not_isSome_iff_eq_none, not_not, isSome_lookup_iff]
      simp

theorem find?_ofRules_eq_none {word : Text} :
    (ofRules rules).1.find? word = none ↔
      ∀ symbol, word = [symbol] → ∀ rule ∈ rules, rule.key.head? ≠ some symbol := by
  rw [← not_iff_not, ← ne_eq, ← mem_symbols_iff_find?]
  simp only [List.mem_map, mem_symbols_ofRules]
  push Not
  constructor
  · rintro ⟨symbol, ⟨rule, hrule, hkey⟩, rfl⟩
    exact ⟨symbol, rfl, rule, hrule, hkey⟩
  · rintro ⟨symbol, rfl, rule, hrule, hkey⟩
    exact ⟨symbol, ⟨rule, hrule, hkey⟩, rfl⟩

theorem size_eq (table : RuleTable) : table.size = table.symbols.length :=
  (List.length_map _).symm

theorem cutKeys_ofRules (rules : List Rule) :
    (ofRules rules).2.filterMap Notice.cutKey? = (rules.map Rule.key).filter (1 < ·.length) := by
  induction rules using List.reverseRecOn with
  | nil => rfl
  | append_singleton rules rule ih =>
      rw [told_concat, List.filterMap_append, ih, Rule.cutKeys_toldAfter, List.map_append,
        List.filter_append]
      rfl

theorem ignoredReplacements_ofRules (rules : List Rule) :
    (ofRules rules).2.filterMap Notice.ignoredReplacement? =
      (rules.filter (·.key = [])).map Rule.replacement := by
  induction rules using List.reverseRecOn with
  | nil => rfl
  | append_singleton rules rule ih =>
      rw [told_concat, List.filterMap_append, ih, Rule.ignoredReplacements_toldAfter,
        List.filter_append, List.map_append]

/-- Of the rules for a symbol all but the first are told about. -/
theorem count_duplicates_ofRules (rules : List Rule) (symbol : CodePoint) :
    ((ofRules rules).2.filterMap Notice.duplicateSymbol?).count symbol =
      (Rule.firstSymbols rules).count symbol - 1 := by
  induction rules using List.reverseRecOn with
  | nil => rfl
  | append_singleton rules rule ih =>
      rw [told_concat, List.filterMap_append, List.count_append, ih,
        Rule.duplicateSymbols_toldAfter, firstSymbols_concat, List.count_append]
      simp only [← mem_symbols_ofRules, symbols_ofRules, List.mem_eraseDups]
      cases rule.key.head? with
      | none => rfl
      | some other =>
          by_cases hother : other = symbol
          · subst hother
            by_cases hknown : other ∈ Rule.firstSymbols rules
            · simp [hknown]
            · simp [hknown, List.count_eq_zero_of_not_mem hknown]
          · by_cases hknown : other ∈ Rule.firstSymbols rules <;> simp [hknown, hother]

/-- Each rule is in the table, or it is ignored, or it comes too late. -/
theorem size_add_length_add_length (rules : List Rule) :
    (ofRules rules).1.size + ((ofRules rules).2.filterMap Notice.ignoredReplacement?).length +
      ((ofRules rules).2.filterMap Notice.duplicateSymbol?).length = rules.length := by
  induction rules using List.reverseRecOn with
  | nil => rfl
  | append_singleton rules rule ih =>
      rw [told_concat, List.filterMap_append, List.filterMap_append,
        Rule.ignoredReplacements_toldAfter, Rule.duplicateSymbols_toldAfter, ofRules_concat]
      simp only [← mem_symbols_ofRules, List.length_append, size_eq] at ih ⊢
      rcases (ofRules rules).1.add_cases rule with
        ⟨hkey, hadd⟩ | ⟨symbol, rest, hkey, ⟨hknown, hadd⟩ | ⟨hfresh, hadd⟩⟩
      · simp [hadd, hkey]
        omega
      · simp [hadd, hkey, hknown]
        omega
      · simp [hadd, hkey, hfresh]
        omega

/-- Rules are warned about, and records are kept of those that come too late. -/
theorem kind_of_mem_ofRules {notice : Notice} (hnotice : notice ∈ (ofRules rules).2) :
    notice.level = .warning ∧ ((∃ key, notice = .keyCut key) ∨
        ∃ replacement, notice = .emptyKey replacement) ∨
      notice.level = .debug ∧ ∃ symbol, notice = .duplicateRule symbol := by
  rw [told_ofRules, Rule.told, List.mem_flatten] at hnotice
  obtain ⟨notices, hnotices, hmem⟩ := hnotice
  obtain ⟨index, hindex, rfl⟩ := List.mem_mapIdx.mp hnotices
  rw [Rule.toldAfter, List.mem_append, List.mem_append, List.mem_map] at hmem
  rcases hmem with (hempty | hcut) | ⟨symbol, -, rfl⟩
  · rw [List.mem_ite_nil_right, List.mem_singleton] at hempty
    exact .inl ⟨hempty.2 ▸ rfl, .inr ⟨_, hempty.2⟩⟩
  · rw [List.mem_ite_nil_right, List.mem_singleton] at hcut
    exact .inl ⟨hcut.2 ▸ rfl, .inl ⟨_, hcut.2⟩⟩
  · exact .inr ⟨rfl, symbol, rfl⟩

/-- What it means that a table holds the first of the rules for each symbol, and that all of the
rules are accounted for in the table and in what is told. -/
structure AccountsFor (table : RuleTable) (notices : List Notice) (rules : List Rule) : Prop where
  /-- The replacement of a symbol is that of the first rule for it; other words have none. -/
  found : ∀ word replacement, table.find? word = some replacement ↔
    ∃ symbol before rule after, word = [symbol] ∧ rules = before ++ rule :: after ∧
      rule.key.head? = some symbol ∧ rule.replacement = replacement ∧
        ∀ earlier ∈ before, earlier.key.head? ≠ some symbol
  missing : ∀ word, table.find? word = none ↔
    ∀ symbol, word = [symbol] → ∀ rule ∈ rules, rule.key.head? ≠ some symbol
  /-- The words in the table are those with a replacement. -/
  contained : ∀ word, word ∈ table.symbols.map ([·]) ↔ table.find? word ≠ none
  /-- The symbols are in the order in which they first come up. -/
  symbols : table.symbols = (Rule.firstSymbols rules).eraseDups
  size : table.size = (Rule.firstSymbols rules).eraseDups.length
  /-- The rules are told about in their order. -/
  told : notices = Rule.told rules
  kinds : ∀ notice ∈ notices,
    notice.level = .warning ∧ ((∃ key, notice = .keyCut key) ∨
        ∃ replacement, notice = .emptyKey replacement) ∨
      notice.level = .debug ∧ ∃ symbol, notice = .duplicateRule symbol
  /-- There is one warning for each key of more than one symbol. -/
  cut : notices.filterMap Notice.cutKey? = (rules.map Rule.key).filter (1 < ·.length)
  /-- There is one warning for each empty key. -/
  ignored : notices.filterMap Notice.ignoredReplacement? =
    (rules.filter (·.key = [])).map Rule.replacement
  /-- There is one record for each rule that comes after another one for its symbol. -/
  duplicates : ∀ symbol, (notices.filterMap Notice.duplicateSymbol?).count symbol =
    (Rule.firstSymbols rules).count symbol - 1
  total : table.size + (notices.filterMap Notice.ignoredReplacement?).length +
    (notices.filterMap Notice.duplicateSymbol?).length = rules.length

/-- A table holds the first of its rules for each symbol, whether they are given as such or as
pairs, and it accounts for all of them. -/
theorem first_rules_win (given : List GivenRule) :
    let rules := given.map GivenRule.toRule
    (ofRules rules).1.AccountsFor (ofRules rules).2 rules := by
  intro rules
  exact {
    found := fun word replacement => find?_ofRules_eq_some
    missing := fun word => find?_ofRules_eq_none
    contained := mem_symbols_iff_find? _
    symbols := symbols_ofRules rules
    size := by rw [size_eq, symbols_ofRules]
    told := told_ofRules rules
    kinds := fun notice => kind_of_mem_ofRules
    cut := cutKeys_ofRules rules
    ignored := ignoredReplacements_ofRules rules
    duplicates := count_duplicates_ofRules rules
    total := size_add_length_add_length rules }

/-- A long key that comes before a short one for the same symbol, and an empty key. -/
example :
    (ofRules [⟨"FX", "F"⟩, ⟨"", "X"⟩, ⟨"F", "FF"⟩, ⟨"FY", "Y"⟩]).2 =
      [.keyCut "FX", .emptyKey "X", .duplicateRule 'F', .keyCut "FY", .duplicateRule 'F'] := by
  decide

end RuleTable

end Lindenmayer
