import Lindenmayer.Grammar.Generation
import Lindenmayer.Proofs.Branch.Nesting

/-!
# Branches of rewritten words

The symbols of a word are commands, so words can be nested and balanced like commands. Rules that
leave brackets alone and have balanced replacements keep the nesting of every word, and so do all
generations.
-/

namespace Lindenmayer

/-- The command of a symbol that is one code point. -/
def CodePoint.command (point : CodePoint) : Command :=
  Token.command ⟨[point], none⟩

/-- The commands of the symbols of a word. -/
def Text.commands (word : Text) : List Command :=
  word.map CodePoint.command

namespace Text

@[simp] theorem commands_nil : commands [] = [] :=
  rfl

@[simp] theorem commands_cons (point : CodePoint) (word : Text) :
    commands (point :: word) = point.command :: commands word :=
  rfl

@[simp] theorem commands_append (first second : Text) :
    commands (first ++ second) = commands first ++ commands second :=
  List.map_append

theorem commands_take (count : Nat) (word : Text) :
    commands (word.take count) = (commands word).take count :=
  List.map_take

end Text

namespace RuleTable

open Command

variable {table : RuleTable}

/-- No bracket has a rule, and every replacement is balanced. -/
structure KeepsBranches (table : RuleTable) : Prop where
  plain : ∀ symbol ∈ table.symbols, ¬ symbol.command.IsBracket
  balanced : ∀ symbol replacement, table.lookup symbol = some replacement →
    Balanced (Text.commands replacement)

theorem mem_entries_of_lookup {symbol : CodePoint} {replacement : Text}
    (hlookup : table.lookup symbol = some replacement) : (symbol, replacement) ∈ table.entries := by
  obtain ⟨before, after, hsplit, -⟩ := List.lookup_eq_some_iff.mp hlookup
  rw [hsplit]
  exact List.mem_append_right _ List.mem_cons_self

/-- A symbol without a rule stays, and one with a rule becomes its replacement. -/
theorem image_cases (table : RuleTable) (symbol : CodePoint) :
    symbol ∉ table.symbols ∧ table.image symbol = [symbol] ∨
      symbol ∈ table.symbols ∧ table.lookup symbol = some (table.image symbol) := by
  by_cases hknown : symbol ∈ table.symbols
  · obtain ⟨replacement, hreplacement⟩ :=
      Option.isSome_iff_exists.mp ((table.isSome_lookup_iff symbol).mpr hknown)
    rw [image, hreplacement]
    exact .inr ⟨hknown, rfl⟩
  · rw [image, table.lookup_eq_none hknown]
    exact .inl ⟨hknown, rfl⟩

/-- Words of symbols without a rule stay as they are. -/
theorem rewrite_of_unknown {word : Text} (hword : ∀ symbol ∈ word, table.lookup symbol = none) :
    table.rewrite word = word := by
  have hsame : ∀ symbol ∈ word, table.image symbol = [symbol] := fun symbol hsymbol => by
    rw [image, hword symbol hsymbol]
    rfl
  rw [rewrite, List.flatMap_congr hsame, List.flatMap_singleton']

theorem generation_of_unknown {word : Text} (hword : ∀ symbol ∈ word, table.lookup symbol = none)
    (count : Nat) : table.generation count word = word := by
  induction count with
  | zero => rfl
  | succ count ih => rw [generation, rewrite_of_unknown hword, ih]

/-- Rewriting brings no symbol into a word that is neither there nor in a replacement. -/
theorem notMem_generation {symbol : CodePoint}
    (hreplacements : ∀ key replacement, table.lookup key = some replacement → symbol ∉ replacement)
    {word : Text} (hword : symbol ∉ word) (count : Nat) :
    symbol ∉ table.generation count word := by
  induction count generalizing word with
  | zero => exact hword
  | succ count ih =>
      apply ih
      intro hmem
      obtain ⟨key, hkey, himage⟩ := List.mem_flatMap.mp hmem
      rcases table.image_cases key with ⟨-, hsame⟩ | ⟨-, hreplaced⟩
      · rw [hsame, List.mem_singleton] at himage
        exact hword (himage ▸ hkey)
      · exact hreplacements key _ hreplaced himage

/-- One symbol and its image open and close the same branches. -/
theorem KeepsBranches.nestedFrom_image (htable : table.KeepsBranches) (symbol : CodePoint)
    {start : Int} (hnested : NestedFrom start [symbol.command]) :
    NestedFrom start (Text.commands (table.image symbol)) ∧
      depth (Text.commands (table.image symbol)) = symbol.command.weight := by
  rcases table.image_cases symbol with ⟨-, hsame⟩ | ⟨hknown, himage⟩
  · rw [hsame]
    exact ⟨hnested, by simp⟩
  · have hbalanced := htable.balanced symbol _ himage
    rw [hbalanced.2, weight_of_not_isBracket (htable.plain symbol hknown)]
    refine ⟨fun before hbefore => ?_, rfl⟩
    have hinner := nested_iff_beginnings.mp hbalanced.1 before hbefore
    have hstart := hnested.start_nonneg
    omega

/-- Rewriting keeps nesting from any depth, and the depth itself. -/
theorem KeepsBranches.nestedFrom_rewrite (htable : table.KeepsBranches) {start : Int} {word : Text}
    (hnested : NestedFrom start word.commands) :
    NestedFrom start (Text.commands (table.rewrite word)) ∧
      depth (Text.commands (table.rewrite word)) = depth word.commands := by
  induction word generalizing start with
  | nil => exact ⟨hnested, rfl⟩
  | cons symbol word ih =>
      have hsplit : NestedFrom start ([symbol.command] ++ Text.commands word) := hnested
      rw [nestedFrom_append] at hsplit
      obtain ⟨himage, hdepth⟩ := htable.nestedFrom_image symbol hsplit.1
      obtain ⟨hrest, hrestDepth⟩ := ih hsplit.2
      rw [rewrite_cons, Text.commands_append, nestedFrom_append, depth_append, hdepth, hrestDepth]
      simp only [depth_cons, depth_nil, Int.add_zero] at hrest
      exact ⟨⟨himage, hrest⟩, rfl⟩

theorem KeepsBranches.balanced_rewrite (htable : table.KeepsBranches) {word : Text}
    (hword : Balanced word.commands) : Balanced (Text.commands (table.rewrite word)) := by
  obtain ⟨hnested, hdepth⟩ := htable.nestedFrom_rewrite (nested_iff_nestedFrom.mp hword.1)
  exact ⟨nested_iff_nestedFrom.mpr hnested, hdepth.trans hword.2⟩

/-- All generations of a balanced word are balanced. -/
theorem KeepsBranches.balanced_generation (htable : table.KeepsBranches) {word : Text}
    (hword : Balanced word.commands) (count : Nat) :
    Balanced (Text.commands (table.generation count word)) := by
  induction count generalizing word with
  | zero => exact hword
  | succ count ih => exact ih (htable.balanced_rewrite hword)

end RuleTable

end Lindenmayer
