import Lindenmayer.Proofs.Branch.Rewriting
import Lindenmayer.Proofs.Token.Splitting
import Lindenmayer.Token.Basic
import Mathlib.Data.List.Infix

/-!
# Words of random scenes

The words of random scenes consist of symbols that stand alone and of `M(1)`, the choice of the
second material. They are read without faults, even if they are cut inside of such a choice, and
rewriting them gives words of this kind again.
-/

namespace Lindenmayer

/-- Whether a command decides about the number of segments. -/
def Command.isShaping (command : Command) : Bool :=
  command = .forward ∨ command.IsBracket

/-- The symbols of random words that stand alone. -/
def singles : Text := "FX+-&^/\\!\"[]"

/-- The choice of the second material. -/
def leafChoice : Text := "M(1)"

/-- Words of single symbols and choices of the second material. -/
inductive Shoot : Text → Prop where
  | nil : Shoot []
  | symbol {point : CodePoint} {word : Text} (hpoint : point ∈ singles) (hword : Shoot word) :
      Shoot (point :: word)
  | leaf {word : Text} (hword : Shoot word) : Shoot (leafChoice ++ word)

/-- The tokens of a word shape the drawing like its symbols, and none that turns has a parameter. -/
structure ReadsPlainly (word : Text) (tokens : List Token) : Prop where
  tokenize : tokenize word = .ok tokens
  shape : (tokens.map Token.command).filter Command.isShaping =
    word.commands.filter Command.isShaping
  turns : ∀ token ∈ tokens, ∀ axis backward, token.command = .turn axis backward →
    token.parameter = none

theorem pieces_leafChoice (rest : Text) :
    pieces (leafChoice ++ rest) = .group 'M' "1" :: pieces rest := by
  rfl

theorem isSymbol_singles : ∀ point ∈ singles, point.isSymbol ∧ point ≠ CodePoint.ofChar '(' := by
  decide

theorem readParameter_one : readParameter "1" = .ok (some 1) := by
  decide

theorem ReadsPlainly.symbol {point : CodePoint} {word : Text} {tokens : List Token}
    (hword : ReadsPlainly word tokens) (hsymbol : point.isSymbol)
    (hhead : word.head? ≠ some (CodePoint.ofChar '(')) :
    ReadsPlainly (point :: word) (⟨[point], none⟩ :: tokens) where
  tokenize := by
    have htokens : Token.ofPieces (pieces word) = .ok tokens := hword.tokenize
    rw [Lindenmayer.tokenize, pieces_cons_bare hsymbol (.inl hhead), Token.ofPieces, htokens]
    rfl
  shape := by
    rw [List.map_cons, Text.commands_cons, List.filter_cons, List.filter_cons, hword.shape]
    rfl
  turns := List.forall_mem_cons.mpr ⟨fun _ _ _ => rfl, hword.turns⟩

theorem ReadsPlainly.leaf {word : Text} {tokens : List Token} (hword : ReadsPlainly word tokens) :
    ReadsPlainly (leafChoice ++ word) (⟨"M", some 1⟩ :: tokens) where
  tokenize := by
    have htokens : Token.ofPieces (pieces word) = .ok tokens := hword.tokenize
    rw [Lindenmayer.tokenize, pieces_leafChoice, Token.ofPieces, readParameter_one, htokens]
    rfl
  shape := by
    have hchoice : (Text.commands leafChoice).filter Command.isShaping = [] := by decide
    rw [Text.commands_append, List.filter_append, hchoice, List.nil_append, ← hword.shape]
    rfl
  turns := List.forall_mem_cons.mpr ⟨fun _ _ hturn => (nomatch hturn), hword.turns⟩

/-- A cut choice of a material is read as single symbols. -/
theorem readsPlainly_leafPart {tail : Text} (htail : tail <+: leafChoice) :
    ∃ tokens, ReadsPlainly tail tokens := by
  have hparts : leafChoice.inits = (["", "M", "M(", "M(1", "M(1)"] : List Text) := rfl
  rw [← List.mem_inits, hparts] at htail
  simp only [List.mem_cons, List.not_mem_nil, or_false] at htail
  rcases htail with rfl | rfl | rfl | rfl | rfl
  · exact ⟨[], rfl, rfl, by simp⟩
  · exact ⟨[⟨"M", none⟩], by decide, by decide, by simp⟩
  · exact ⟨[⟨"M", none⟩], by decide, by decide, by simp⟩
  · exact ⟨[⟨"M", none⟩, ⟨"1", none⟩], by decide, by decide, by simp⟩
  · exact ⟨[⟨"M", some 1⟩], (@ReadsPlainly.mk [] [] rfl rfl (by simp)).leaf⟩

namespace Shoot

variable {word : Text}

theorem head?_ne (hword : Shoot word) {tail : Text} (htail : tail <+: leafChoice) :
    (word ++ tail).head? ≠ some (CodePoint.ofChar '(') := by
  cases hword with
  | nil =>
      have hparts : ∀ part ∈ leafChoice.inits, part.head? ≠ some (CodePoint.ofChar '(') := by
        decide
      exact hparts tail ((List.mem_inits _ _).mpr htail)
  | symbol hpoint _ => exact fun heq => (isSymbol_singles _ hpoint).2 (Option.some.inj heq)
  | leaf _ => exact fun heq => absurd (Option.some.inj heq) (by decide)

/-- A word is read plainly, even if it ends within a choice of a material. -/
theorem readsPlainly (hword : Shoot word) {tail : Text} (htail : tail <+: leafChoice) :
    ∃ tokens, ReadsPlainly (word ++ tail) tokens := by
  induction hword with
  | nil => exact readsPlainly_leafPart htail
  | symbol hpoint hword ih =>
      obtain ⟨tokens, htokens⟩ := ih
      exact ⟨_, htokens.symbol (isSymbol_singles _ hpoint).1 (hword.head?_ne htail)⟩
  | leaf hword ih =>
      obtain ⟨tokens, htokens⟩ := ih
      rw [List.append_assoc]
      exact ⟨_, htokens.leaf⟩

theorem append {first second : Text} (hfirst : Shoot first) (hsecond : Shoot second) :
    Shoot (first ++ second) := by
  induction hfirst with
  | nil => exact hsecond
  | symbol hpoint _ ih => exact .symbol hpoint ih
  | leaf _ ih =>
      rw [List.append_assoc]
      exact .leaf ih

/-- The beginning of a word is a word, up to a choice that is cut. -/
theorem take (hword : Shoot word) (count : Nat) :
    ∃ whole tail, word.take count = whole ++ tail ∧ Shoot whole ∧ tail <+: leafChoice := by
  induction hword generalizing count with
  | nil => exact ⟨[], [], List.take_nil, .nil, List.nil_prefix⟩
  | @symbol point word hpoint _ ih =>
      cases count with
      | zero => exact ⟨[], [], rfl, .nil, List.nil_prefix⟩
      | succ count =>
          obtain ⟨whole, tail, htake, hwhole, htail⟩ := ih count
          refine ⟨point :: whole, tail, ?_, .symbol hpoint hwhole, htail⟩
          rw [List.take_succ_cons, htake, List.cons_append]
  | @leaf word _ ih =>
      rw [List.take_append]
      -- The cut falls into this choice or behind it.
      rcases Nat.lt_or_ge count leafChoice.length with hshort | hlong
      · rw [Nat.sub_eq_zero_of_le hshort.le, List.take_zero, List.append_nil]
        exact ⟨[], _, rfl, .nil, List.take_prefix _ _⟩
      · obtain ⟨whole, tail, htake, hwhole, htail⟩ := ih (count - leafChoice.length)
        refine ⟨leafChoice ++ whole, tail, ?_, .leaf hwhole, htail⟩
        rw [htake, List.take_of_length_le hlong, List.append_assoc]

end Shoot

/-- The symbols that occur in the words. -/
theorem Shoot.subset {word : Text} (hword : Shoot word) : word ⊆ singles ++ leafChoice := by
  induction hword with
  | nil => exact List.nil_subset _
  | symbol hpoint _ ih => exact List.cons_subset.mpr ⟨List.mem_append_left _ hpoint, ih⟩
  | leaf _ ih => exact List.append_subset.mpr ⟨List.subset_append_right _ _, ih⟩

end Lindenmayer
