import Lindenmayer.Proofs.CommandLine.Sample
import Lindenmayer.Proofs.Drawing
import Lindenmayer.Proofs.Sampling.Words
import Lindenmayer.Proofs.Turtle.Progress

/-!
# Generations of random scenes

Under rules with replacements like those of random scenes, every generation can be drawn, and so can
its beginning. From the first generation on there is a step forward, and it comes so early that a
sample has it, too.
-/

namespace Lindenmayer

open Command

variable {μ : Type}

/-- The angle of a setup and its opposite are not infinite. -/
def Setup.CanTurn (setup : Setup μ) : Prop :=
  setup.angle.isInf = false ∧ (-setup.angle).isInf = false

/-- Nested words that are read plainly can be drawn, and each step forward leaves a segment. -/
theorem ReadsPlainly.exists_interpret {setup : Setup μ} {word : Text} {tokens : List Token}
    (hreads : ReadsPlainly word tokens) (hsetup : setup.CanTurn) (hnested : Nested word.commands) :
    ∃ segments, (interpret setup tokens).outcome = .ok segments ∧
      (CodePoint.ofChar 'F' ∈ word → segments ≠ []) := by
  have hobey : ∀ token ∈ tokens, setup.CanObey token := by
    intro token htoken axis backward hturn
    rw [hreads.turns token htoken axis backward hturn, Option.getD_none]
    cases backward with
    | false => exact hsetup.1
    | true => exact hsetup.2
  have hbrackets : ∀ command : Command, command.IsBracket → command.isShaping := fun _ hbracket =>
    decide_eq_true (.inr hbracket)
  -- Symbols and tokens agree in the commands that matter for branches.
  rw [nested_iff_nestedFrom, ← nestedFrom_filter hbrackets, ← hreads.shape,
    nestedFrom_filter hbrackets, ← nested_iff_nestedFrom] at hnested
  obtain ⟨segments, hsegments⟩ := Lindenmayer.exists_interpret hobey hnested
  refine ⟨segments, hsegments, fun hforward => (ne_nil_interpret hsegments).mpr ?_⟩
  have hshaping : Command.forward ∈ (tokens.map Token.command).filter Command.isShaping := by
    rw [hreads.shape, List.mem_filter]
    exact ⟨List.mem_map_of_mem hforward, rfl⟩
  exact (List.mem_filter.mp hshaping).1

namespace RuleTable

/-- Steps forward have a rule, perhaps buds have one, and the replacements are sprouts. -/
structure Sprouts (table : RuleTable) : Prop where
  symbols : table.symbols ⊆ (Text.ofString "FX")
  forward : CodePoint.ofChar 'F' ∈ table.symbols
  sprout : ∀ symbol replacement, table.lookup symbol = some replacement → Sprout replacement

variable {table : RuleTable} {word : Text} {symbol : CodePoint}

theorem Sprouts.keepsBranches (htable : table.Sprouts) : table.KeepsBranches where
  plain symbol hsymbol := by
    have hplain : ∀ symbol ∈ Text.ofString "FX", ¬ symbol.command.IsBracket := by decide
    exact hplain symbol (htable.symbols hsymbol)
  balanced symbol replacement hreplacement :=
    (htable.sprout symbol replacement hreplacement).balanced

theorem Sprouts.rewrite_leafChoice (htable : table.Sprouts) :
    table.rewrite leafChoice = leafChoice := by
  have hfree : ∀ symbol ∈ leafChoice, symbol ∉ Text.ofString "FX" := by decide
  exact rewrite_of_unknown fun symbol hsymbol =>
    table.lookup_eq_none fun hknown => hfree symbol hsymbol (htable.symbols hknown)

theorem Sprouts.shoot_rewrite (htable : table.Sprouts) (hword : Shoot word) :
    Shoot (table.rewrite word) := by
  induction hword with
  | nil => exact .nil
  | symbol hpoint _ ih =>
      rw [rewrite_cons]
      rcases table.image_cases _ with ⟨-, hsame⟩ | ⟨-, himage⟩
      · rw [hsame]
        exact .symbol hpoint ih
      · exact (htable.sprout _ _ himage).shoot.append ih
  | leaf _ ih =>
      rw [rewrite_append, htable.rewrite_leafChoice]
      exact .leaf ih

theorem Sprouts.shoot_generation (htable : table.Sprouts) (hword : Shoot word) (count : Nat) :
    Shoot (table.generation count word) := by
  induction count generalizing word with
  | zero => exact hword
  | succ count ih => exact ih (htable.shoot_rewrite hword)

/-- Where an early symbol has a rule, there is an early step forward after rewriting. -/
theorem Sprouts.forward_mem_rewrite (htable : table.Sprouts) {early : Nat}
    (hearly : ∃ symbol ∈ word.take early, symbol ∈ table.symbols) :
    CodePoint.ofChar 'F' ∈ (table.rewrite word).take (early + sproutLimit) := by
  induction word generalizing early with
  | nil => simp at hearly
  | cons point word ih =>
      cases early with
      | zero => simp at hearly
      | succ early =>
          rw [rewrite_cons]
          rcases table.image_cases point with ⟨hunknown, hsame⟩ | ⟨-, himage⟩
          -- A symbol without a rule keeps its place, and the early symbol comes after it.
          · rw [hsame, Nat.add_right_comm, List.singleton_append, List.take_succ_cons]
            simp only [List.take_succ_cons, List.mem_cons, exists_eq_or_imp] at hearly
            exact .tail _ (ih (hearly.resolve_left hunknown))
          -- A sprout is short enough to end within the new bound, and it has a step forward.
          · have hsprout := htable.sprout point _ himage
            rw [List.take_append]
            apply List.mem_append_left
            rw [List.take_of_length_le (hsprout.short.trans (Nat.le_add_left _ _))]
            exact hsprout.forward

/-- After the start there is a step forward in every generation, and an early one. -/
theorem Sprouts.forward_mem_generation (htable : table.Sprouts) (hsymbol : symbol ∈ table.symbols)
    (count : Nat) :
    CodePoint.ofChar 'F' ∈
      (table.generation (count + 1) [symbol]).take ((count + 1) * sproutLimit + 1) := by
  rw [generation_succ, Nat.succ_mul, Nat.add_right_comm]
  apply htable.forward_mem_rewrite
  cases count with
  | zero => exact ⟨symbol, List.mem_cons_self, hsymbol⟩
  | succ count => exact ⟨_, htable.forward_mem_generation hsymbol count, htable.forward⟩

/-- Every generation can be drawn, and so can its beginning. -/
theorem Sprouts.exists_interpret (htable : table.Sprouts) (hsymbol : symbol ∈ table.symbols)
    {setup : Setup μ} (hsetup : setup.CanTurn) (count limit : Nat) :
    ∃ tokens segments, tokenize ((table.generation count [symbol]).take limit) = .ok tokens ∧
      (interpret setup tokens).outcome = .ok segments ∧
      (CodePoint.ofChar 'F' ∈ (table.generation count [symbol]).take limit → segments ≠ []) := by
  have hsingle : symbol ∈ singles := List.mem_of_mem_take (i := 2) (htable.symbols hsymbol)
  have hstart : Balanced (Text.commands [symbol]) :=
    balanced_singleton (htable.keepsBranches.plain symbol hsymbol)
  obtain ⟨whole, tail, htake, hwhole, htail⟩ :=
    (htable.shoot_generation (.symbol hsingle .nil) count).take limit
  obtain ⟨tokens, hreads⟩ := hwhole.readsPlainly htail
  rw [← htake] at hreads
  have hnested : Nested (Text.commands ((table.generation count [symbol]).take limit)) := by
    rw [Text.commands_take]
    exact (htable.keepsBranches.balanced_generation hstart count).1.beginning
      (List.take_prefix _ _)
  obtain ⟨segments, hsegments, hforward⟩ := hreads.exists_interpret hsetup hnested
  exact ⟨tokens, segments, hreads.tokenize, hsegments, hforward⟩

/-- A sample of at most four generations can be drawn and has segments. -/
theorem Sprouts.exists_interpret_sample (htable : table.Sprouts)
    (hsymbol : symbol ∈ table.symbols) {setup : Setup μ} (hsetup : setup.CanTurn) {count : Nat}
    (hcount : 0 < count ∧ count ≤ 4) :
    ∃ tokens segments, tokenize (table.sample count [symbol]).word = .ok tokens ∧
      (interpret setup tokens).outcome = .ok segments ∧ segments ≠ [] := by
  obtain ⟨reached, hreached, hword, hreason⟩ := table.exists_sample_word count [symbol]
  -- The start is too short to be cut, so the sample is that of a later generation.
  have hpos : 0 < reached := by
    rcases hreason with rfl | hlong
    · exact hcount.1
    · apply Nat.pos_of_ne_zero
      rintro rfl
      exact absurd hlong (show ¬ sampleLimit < 1 by decide)
  obtain ⟨tokens, segments, htokens, hsegments, hforward⟩ :=
    htable.exists_interpret hsymbol hsetup reached sampleLimit
  rw [← hword] at htokens
  refine ⟨tokens, segments, htokens, hsegments, hforward ?_⟩
  obtain ⟨before, rfl⟩ := Nat.exists_eq_succ_of_ne_zero hpos.ne'
  have hearly : (before + 1) * sproutLimit + 1 ≤ sampleLimit := by
    rw [sproutLimit, sampleLimit]
    omega
  exact List.take_subset_take_left _ hearly (htable.forward_mem_generation hsymbol before)

end RuleTable

end Lindenmayer
