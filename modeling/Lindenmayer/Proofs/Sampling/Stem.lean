import Lindenmayer.Proofs.Sampling.Words
import Lindenmayer.Proofs.Token.Brackets

/-!
# The form of random words

Whatever is drawn, a random word consists of steps forward, turns and branches. Every branch begins
thinner and longer, at most three are open at once, all are closed in the end, and there are no more
of them than draws.
-/

namespace Lindenmayer

open Command

variable {σ : Type}

/-- The symbols of random words without a bud. -/
def stemSymbols : Text := "F+-&^/\\!\"[]"

/-- What may stand around a symbol: an opening bracket begins a thinner and longer branch, and the
symbols for that stand only there. -/
structure StandsWell (before : Text) (symbol : CodePoint) (after : Text) : Prop where
  opening : symbol = CodePoint.ofChar '[' → Text.ofString "!\"" <+: after
  thinner : symbol = CodePoint.ofChar '!' → Text.ofString "[" <:+ before
  longer : symbol = CodePoint.ofChar '"' → Text.ofString "[!" <:+ before

/-- Each branch begins thinner and longer, and no symbol makes it so anywhere else. -/
def Text.MarksBranches (word : Text) : Prop :=
  ∀ before symbol after, word = before ++ symbol :: after → StandsWell before symbol after

/-- What every random word of a given length is like. -/
structure IsStem (length : Int) (word : Text) : Prop where
  symbols : word ⊆ stemSymbols
  brackets : word.BracketsMatch
  shallow : ∀ before, before <+: word →
    before.count (CodePoint.ofChar '[') ≤ before.count (CodePoint.ofChar ']') + 3
  branches : word.MarksBranches
  forward : CodePoint.ofChar 'F' ∈ word
  openings : (word.count (CodePoint.ofChar '[') : Int) ≤ max length 0

theorem StandsWell.of_plain {symbol : CodePoint} (hplain : symbol ∉ Text.ofString "[!\"")
    (before after : Text) : StandsWell before symbol after where
  opening := by
    rintro rfl
    exact absurd List.mem_cons_self hplain
  thinner := by
    rintro rfl
    exact absurd (.tail _ List.mem_cons_self) hplain
  longer := by
    rintro rfl
    exact absurd (.tail _ (.tail _ List.mem_cons_self)) hplain

theorem StandsWell.cons {before after : Text} {symbol : CodePoint}
    (hstands : StandsWell before symbol after) (first : CodePoint) :
    StandsWell (first :: before) symbol after where
  opening := hstands.opening
  thinner hsymbol := (hstands.thinner hsymbol).trans (List.suffix_cons first before)
  longer hsymbol := (hstands.longer hsymbol).trans (List.suffix_cons first before)

namespace Text

variable {word : Text}

theorem marksBranches_nil : MarksBranches [] := by
  intro before symbol after hsplit
  exact absurd hsplit.symm (List.append_ne_nil_of_right_ne_nil _ (List.cons_ne_nil _ _))

theorem MarksBranches.plain {first : CodePoint} (hword : word.MarksBranches)
    (hplain : first ∉ Text.ofString "[!\"") : MarksBranches (first :: word) := by
  intro before symbol after hsplit
  cases before with
  | nil =>
      obtain ⟨rfl, rfl⟩ := List.cons.inj hsplit
      exact .of_plain hplain _ _
  | cons other before =>
      obtain ⟨rfl, hrest⟩ := List.cons.inj hsplit
      exact (hword before symbol after hrest).cons first

theorem MarksBranches.branch (hword : word.MarksBranches) :
    MarksBranches
      (CodePoint.ofChar '[' :: CodePoint.ofChar '!' :: CodePoint.ofChar '"' :: word) := by
  intro before symbol after hsplit
  -- The symbol is one of the three, or it stands behind them.
  rcases before with - | ⟨first, - | ⟨second, - | ⟨third, before⟩⟩⟩ <;>
    simp only [List.nil_append, List.cons_append, List.cons.injEq] at hsplit
  · obtain ⟨rfl, rfl⟩ := hsplit
    exact ⟨fun _ => List.prefix_append _ _, fun hthinner => absurd hthinner (by decide),
      fun hlonger => absurd hlonger (by decide)⟩
  · obtain ⟨rfl, rfl, rfl⟩ := hsplit
    exact ⟨fun hopening => absurd hopening (by decide), fun _ => List.suffix_rfl,
      fun hlonger => absurd hlonger (by decide)⟩
  · obtain ⟨rfl, rfl, rfl, rfl⟩ := hsplit
    exact ⟨fun hopening => absurd hopening (by decide), fun hthinner => absurd hthinner (by decide),
      fun _ => List.suffix_rfl⟩
  · obtain ⟨rfl, rfl, rfl, hrest⟩ := hsplit
    exact (((hword before symbol after hrest).cons _).cons _).cons _

end Text

namespace WordPart

variable {count depth : Nat} {parts : List WordPart}

theorem turns_subset_stemSymbols : turns ⊆ stemSymbols := by
  decide

theorem turns_plain : ∀ symbol ∈ turns, symbol ∉ Text.ofString "[!\"" := by
  decide

theorem FitsInside.subset_stemSymbols (hparts : FitsInside depth parts) :
    parts.flatMap text ⊆ stemSymbols := by
  induction hparts with
  | nil => exact List.nil_subset _
  | openBranch _ _ ih | closeBranch _ _ ih | forward _ ih =>
      exact List.append_subset.mpr ⟨by decide, ih⟩
  | turn hsymbol _ ih => exact List.cons_subset.mpr ⟨turns_subset_stemSymbols hsymbol, ih⟩

theorem FitsInside.marksBranches (hparts : FitsInside depth parts) :
    Text.MarksBranches (parts.flatMap text) := by
  induction hparts with
  | nil => exact Text.marksBranches_nil
  | openBranch _ _ ih => exact ih.branch
  | closeBranch _ _ ih | forward _ ih => exact ih.plain (by decide)
  | turn hsymbol _ ih => exact ih.plain (turns_plain _ hsymbol)

/-- Where no branch is open before the parts, there are never too many open ones in their word. -/
theorem FitsInside.shallow (hparts : FitsInside 0 parts) {before : Text}
    (hbefore : before <+: parts.flatMap text) :
    before.count (CodePoint.ofChar '[') ≤ before.count (CodePoint.ofChar ']') + maxDepth := by
  have hdepth := hparts.opensWithin _ (hbefore.map CodePoint.command)
  change ((0 : Nat) : Int) + Command.depth (Text.commands before) ≤ maxDepth at hdepth
  rw [Text.depth_commands] at hdepth
  omega

/-- No more branches are opened than parts are drawn. -/
theorem Drawable.count_opening_le (hparts : Drawable count depth parts) :
    (parts.flatMap text).count (CodePoint.ofChar '[') ≤ count := by
  induction hparts with
  | finish depth =>
      refine (List.count_eq_zero.mpr fun hopening => ?_).le
      obtain ⟨part, hpart, htext⟩ := List.mem_flatMap.mp hopening
      rw [List.eq_of_mem_replicate hpart] at htext
      exact absurd htext (by decide)
  | openBranch _ _ ih =>
      rw [List.flatMap_cons, List.count_append, Nat.add_comm]
      exact Nat.succ_le_succ ih
  | closeBranch _ ih | forward _ ih =>
      rw [List.flatMap_cons, List.count_append]
      exact (Nat.zero_add _).trans_le (ih.trans (Nat.le_succ _))
  | @turn count depth rest symbol hsymbol _ ih =>
      have hother : symbol ≠ CodePoint.ofChar '[' := by
        rintro rfl
        exact turns_plain _ hsymbol List.mem_cons_self
      change List.count _ (_ :: _) ≤ _
      rw [List.count_cons_of_ne hother]
      exact ih.trans (Nat.le_succ _)

theorem count_opening_word (parts : List WordPart) :
    (word parts).count (CodePoint.ofChar '[') =
      (parts.flatMap text).count (CodePoint.ofChar '[') := by
  rw [word_eq]
  rcases completed_cases parts with ⟨-, hsame⟩ | hadded
  · rw [hsame]
  · rw [hadded, List.flatMap_append, List.count_append]
    rfl

end WordPart

/-- Whatever the draws and the probability of branches, every random word is a stem. -/
theorem randomWord_isStem (source : Source σ) (branching : Float) (length : Int) (state : σ) :
    IsStem length (randomWord source branching length state).1 := by
  have hdrawn := WordPart.drawable_draw source branching length.toNat 0 state
  have hfits := (hdrawn.fitsInside (Nat.zero_le _)).completed
  exact
    { symbols := hfits.subset_stemSymbols
      brackets := Text.bracketsMatch_iff.mpr hfits.closes.balanced
      shallow := fun before hbefore => hfits.shallow hbefore
      branches := hfits.marksBranches
      forward := WordPart.forward_mem_word _
      openings := by
        have hcount := hdrawn.count_opening_le
        rw [← WordPart.count_opening_word] at hcount
        change (((WordPart.word _).count (CodePoint.ofChar '[') : Nat) : Int) ≤ _
        omega }

end Lindenmayer
