import Lindenmayer.Proofs.Sampling.Shoot
import Lindenmayer.Sampling.Scene

/-!
# Random words

What a run of draws can give is described once, without the source of the draws. Every random word
is balanced, short, and has a step forward.
-/

namespace Lindenmayer

open Command

variable {σ : Type}

namespace Source

theorem pick_mem {α : Type} (source : Source σ) {items : List α} (hitems : 0 < items.length)
    (state : σ) : (source.pick items hitems state).1 ∈ items :=
  List.getElem_mem _

theorem between_le (source : Source σ) {low high : Nat} (hbounds : low ≤ high) (state : σ) :
    low ≤ (source.between low high state).1 ∧ (source.between low high state).1 ≤ high := by
  have hoffset := (source.below (high - low + 1) (Nat.succ_pos _) state).1.isLt
  simp only [between]
  omega

end Source

/-- The most symbols of a replacement in a random scene. -/
def sproutLimit : Nat := 46

/-- Words that can be replacements in a random scene. -/
structure Sprout (word : Text) : Prop where
  shoot : Shoot word
  balanced : Balanced word.commands
  forward : CodePoint.ofChar 'F' ∈ word
  short : word.length ≤ sproutLimit

theorem shoot_of_subset {word : Text} (hword : word ⊆ singles) : Shoot word := by
  induction word with
  | nil => exact .nil
  | cons point word ih =>
      obtain ⟨hpoint, hrest⟩ := List.cons_subset.mp hword
      exact .symbol hpoint (ih hrest)

/-- A step forward can be added to a word. -/
theorem sprout_concat {word : Text} (hshoot : Shoot word) (hbalanced : Balanced word.commands)
    (hshort : word.length < sproutLimit) : Sprout (word ++ [CodePoint.ofChar 'F']) where
  shoot := hshoot.append (shoot_of_subset (by decide))
  balanced := by
    rw [Text.commands_append]
    exact hbalanced.append (@balanced_singleton .forward (by decide))
  forward := List.mem_append_right _ List.mem_cons_self
  short := by
    rw [List.length_append]
    exact hshort

theorem turns_subset : WordPart.turns ⊆ singles := by
  decide

theorem plain_turns : ∀ point ∈ WordPart.turns, ¬ point.command.IsBracket := by
  decide

namespace WordPart

/-- What can be drawn in so many draws inside so many open branches. -/
inductive Drawable : (count depth : Nat) → List WordPart → Prop where
  | finish (depth : Nat) : Drawable 0 depth (List.replicate depth .closeBranch)
  | openBranch {count depth : Nat} {rest : List WordPart} (hdepth : depth < maxDepth)
      (hrest : Drawable count (depth + 1) rest) : Drawable (count + 1) depth (.openBranch :: rest)
  | closeBranch {count depth : Nat} {rest : List WordPart} (hrest : Drawable count depth rest) :
      Drawable (count + 1) (depth + 1) (.closeBranch :: rest)
  | forward {count depth : Nat} {rest : List WordPart} (hrest : Drawable count depth rest) :
      Drawable (count + 1) depth (.forward :: rest)
  | turn {count depth : Nat} {rest : List WordPart} {symbol : CodePoint} (hsymbol : symbol ∈ turns)
      (hrest : Drawable count depth rest) : Drawable (count + 1) depth (.turn symbol :: rest)

/-- Whatever the source, the parts of a word are drawn in one of the described ways. -/
theorem drawable_draw (source : Source σ) (branching : Float) (count depth : Nat) (state : σ) :
    Drawable count depth (draw source branching count depth state).1 := by
  induction count generalizing depth state with
  | zero => exact .finish depth
  | succ count ih =>
      rw [draw]
      dsimp only
      split
      next hopen => exact .openBranch hopen.2 (ih _ _)
      next =>
        split
        next hclose =>
          obtain ⟨above, rfl⟩ := Nat.exists_eq_succ_of_ne_zero (Nat.ne_of_gt hclose.2)
          exact .closeBranch (ih _ _)
        next =>
          split
          next => exact .forward (ih _ _)
          next => exact .turn (source.pick_mem _ _) (ih _ _)

/-- Parts that fit inside `depth` open branches: they close these branches and all of their own, and
no more than `maxDepth` branches are open at once. -/
inductive FitsInside : (depth : Nat) → List WordPart → Prop where
  | nil : FitsInside 0 []
  | openBranch {depth : Nat} {rest : List WordPart} (hdepth : depth < maxDepth)
      (hrest : FitsInside (depth + 1) rest) : FitsInside depth (.openBranch :: rest)
  | closeBranch {depth : Nat} {rest : List WordPart} (hdepth : depth < maxDepth)
      (hrest : FitsInside depth rest) : FitsInside (depth + 1) (.closeBranch :: rest)
  | forward {depth : Nat} {rest : List WordPart} (hrest : FitsInside depth rest) :
      FitsInside depth (.forward :: rest)
  | turn {depth : Nat} {rest : List WordPart} {symbol : CodePoint} (hsymbol : symbol ∈ turns)
      (hrest : FitsInside depth rest) : FitsInside depth (.turn symbol :: rest)

variable {count depth : Nat} {parts : List WordPart}

theorem fitsInside_closings (hdepth : depth ≤ maxDepth) :
    FitsInside depth (List.replicate depth closeBranch) := by
  induction depth with
  | zero => exact .nil
  | succ depth ih => exact .closeBranch hdepth (ih (Nat.le_of_succ_le hdepth))

theorem Drawable.fitsInside (hparts : Drawable count depth parts) (hdepth : depth ≤ maxDepth) :
    FitsInside depth parts := by
  induction hparts with
  | finish depth => exact fitsInside_closings hdepth
  | openBranch hshallow _ ih => exact .openBranch hshallow (ih hshallow)
  | closeBranch _ ih => exact .closeBranch hdepth (ih (Nat.le_of_succ_le hdepth))
  | forward _ ih => exact .forward (ih hdepth)
  | turn hsymbol _ ih => exact .turn hsymbol (ih hdepth)

theorem FitsInside.concat_forward (hparts : FitsInside depth parts) :
    FitsInside depth (parts ++ [.forward]) := by
  induction hparts with
  | nil => exact .forward .nil
  | openBranch hdepth _ ih => exact .openBranch hdepth ih
  | closeBranch hdepth _ ih => exact .closeBranch hdepth ih
  | forward _ ih => exact .forward ih
  | turn hsymbol _ ih => exact .turn hsymbol ih

theorem FitsInside.shoot (hparts : FitsInside depth parts) : Shoot (parts.flatMap text) := by
  induction hparts with
  | nil => exact .nil
  | openBranch _ _ ih => exact (shoot_of_subset (by decide)).append ih
  | closeBranch _ _ ih | forward _ ih => exact .symbol (by decide) ih
  | turn hsymbol _ ih => exact .symbol (turns_subset hsymbol) ih

/-- The parts close the branches that are open before them, and all of their own. -/
theorem FitsInside.closes (hparts : FitsInside depth parts) :
    Closes depth (Text.commands (parts.flatMap text)) := by
  induction hparts with
  | nil => exact ⟨nestedFrom_nil.mpr le_rfl, rfl⟩
  | openBranch _ _ ih =>
      -- the two symbols after the bracket are no brackets
      have hinner := (ih.plain (show ¬ Command.lengthen.IsBracket by decide)).plain
        (show ¬ Command.widen.IsBracket by decide)
      exact hinner.cons (Int.natCast_nonneg _)
  | closeBranch _ _ ih => exact ih.close
  | forward _ ih => exact ih.plain (show ¬ Command.forward.IsBracket by decide)
  | turn hsymbol _ ih => exact ih.plain (plain_turns _ hsymbol)

/-- The parts have no more than `maxDepth` branches open at once. -/
theorem FitsInside.opensWithin (hparts : FitsInside depth parts) :
    OpensWithin maxDepth depth (Text.commands (parts.flatMap text)) := by
  induction hparts with
  | nil => exact opensWithin_nil.mpr (Int.natCast_nonneg _)
  | openBranch hdepth _ ih =>
      have hinner := (ih.plain (show ¬ Command.lengthen.IsBracket by decide)).plain
        (show ¬ Command.widen.IsBracket by decide)
      exact hinner.cons (Int.ofNat_le.mpr hdepth.le)
  | closeBranch hdepth _ ih => exact ih.close hdepth
  | forward _ ih => exact ih.plain (show ¬ Command.forward.IsBracket by decide)
  | turn hsymbol _ ih => exact ih.plain (plain_turns _ hsymbol)

/-- The parts of a word with the step forward that it may get at its end. -/
def completed (parts : List WordPart) : List WordPart :=
  if parts.contains .forward then parts else parts ++ [.forward]

theorem word_eq (parts : List WordPart) : word parts = (completed parts).flatMap text :=
  rfl

theorem completed_cases (parts : List WordPart) :
    .forward ∈ parts ∧ completed parts = parts ∨ completed parts = parts ++ [.forward] := by
  rw [completed]
  split
  next hforward => exact .inl ⟨by simpa using hforward, rfl⟩
  next => exact .inr rfl

theorem forward_mem_word (parts : List WordPart) : CodePoint.ofChar 'F' ∈ word parts := by
  rw [word_eq]
  refine List.mem_flatMap.mpr ⟨.forward, ?_, List.mem_cons_self⟩
  rcases completed_cases parts with ⟨hforward, hsame⟩ | hadded
  · rwa [hsame]
  · rw [hadded]
    exact List.mem_append_right _ List.mem_cons_self

theorem FitsInside.completed (hparts : FitsInside depth parts) :
    FitsInside depth (completed parts) := by
  rcases completed_cases parts with ⟨-, hsame⟩ | hadded
  · rwa [hsame]
  · rw [hadded]
    exact hparts.concat_forward

theorem length_word_le (parts : List WordPart) :
    (word parts).length ≤ (parts.flatMap text).length + 1 := by
  rw [word_eq]
  rcases completed_cases parts with ⟨-, hsame⟩ | hadded
  · rw [hsame]
    exact Nat.le_succ _
  · rw [hadded, List.flatMap_append, List.length_append]
    exact le_rfl

theorem Drawable.length_le (hparts : Drawable count depth parts) (hdepth : depth ≤ maxDepth) :
    (parts.flatMap text).length ≤ 3 * count + maxDepth := by
  induction hparts with
  | finish depth => simpa [text, Text.ofString] using hdepth
  | openBranch hshallow _ ih =>
      have hrest := ih hshallow
      rw [List.flatMap_cons, List.length_append]
      change 3 + _ ≤ _
      omega
  | closeBranch _ ih =>
      have hrest := ih (by omega)
      rw [List.flatMap_cons, List.length_append]
      change 1 + _ ≤ _
      omega
  | forward _ ih | turn _ _ ih =>
      have hrest := ih hdepth
      rw [List.flatMap_cons, List.length_append]
      change 1 + _ ≤ _
      omega

/-- The word of drawn parts is a replacement, with the step forward that may be added. -/
theorem Drawable.sprout_word (hparts : Drawable count 0 parts) (hcount : count ≤ 14) :
    Sprout (word parts) where
  shoot := (hparts.fitsInside (Nat.zero_le _)).completed.shoot
  balanced := (hparts.fitsInside (Nat.zero_le _)).completed.closes.balanced
  forward := forward_mem_word parts
  short := by
    have hword := length_word_le parts
    have hlength := hparts.length_le (Nat.zero_le _)
    rw [maxDepth] at hlength
    rw [sproutLimit]
    omega

end WordPart

theorem sprout_randomWord (source : Source σ) (branching : Float) {length : Int}
    (hlength : length ≤ 14) (state : σ) :
    Sprout (randomWord source branching length state).1 :=
  (WordPart.drawable_draw source branching length.toNat 0 state).sprout_word (by omega)

namespace BudPart

/-- Parts that can be drawn: every turn is one of the usual ones. -/
def IsDrawable : BudPart → Prop
  | .turn symbol => symbol ∈ WordPart.turns
  | _ => True

theorem drawable_draw (source : Source σ) (count : Nat) (state : σ) :
    (draw source count state).1.length = count ∧
      ∀ part ∈ (draw source count state).1, part.IsDrawable := by
  induction count generalizing state with
  | zero => exact ⟨rfl, nofun⟩
  | succ count ih =>
      have hcons : ∀ (part : BudPart) (after : σ), part.IsDrawable →
          (part :: (draw source count after).1).length = count + 1 ∧
            ∀ other ∈ part :: (draw source count after).1, other.IsDrawable := by
        intro part after hpart
        obtain ⟨hlength, hrest⟩ := ih after
        exact ⟨congrArg Nat.succ hlength, List.forall_mem_cons.mpr ⟨hpart, hrest⟩⟩
      rw [draw]
      dsimp only
      split
      next => exact hcons _ _ trivial
      next =>
        split
        next => exact hcons _ _ trivial
        next =>
          split
          next => exact hcons _ _ (source.pick_mem _ _)
          next => exact hcons _ _ trivial

variable {part : BudPart} {parts : List BudPart}

theorem IsDrawable.shoot (hpart : part.IsDrawable) : Shoot part.text := by
  cases part with
  | forward | bud => exact shoot_of_subset (by decide)
  | turn symbol => exact .symbol (turns_subset hpart) .nil
  | leaf =>
      have hbud : Shoot (Text.ofString "X]") := shoot_of_subset (by decide)
      exact .symbol (by decide) (.leaf hbud)

theorem IsDrawable.balanced (hpart : part.IsDrawable) : Balanced (Text.commands part.text) := by
  cases part with
  | turn symbol => exact balanced_singleton (plain_turns symbol hpart)
  | _ => decide

theorem length_text_le (part : BudPart) : part.text.length ≤ 7 := by
  cases part <;> simp [text, Text.ofString]

theorem flatMap_text (hparts : ∀ part ∈ parts, part.IsDrawable) :
    Shoot (parts.flatMap text) ∧ Balanced (Text.commands (parts.flatMap text)) ∧
      (parts.flatMap text).length ≤ 7 * parts.length := by
  induction parts with
  | nil => exact ⟨.nil, balanced_nil, Nat.zero_le _⟩
  | cons part parts ih =>
      obtain ⟨hpart, hrest⟩ := List.forall_mem_cons.mp hparts
      obtain ⟨hshoot, hbalanced, hlength⟩ := ih hrest
      have hfirst := part.length_text_le
      refine ⟨hpart.shoot.append hshoot, ?_, ?_⟩
      · rw [List.flatMap_cons, Text.commands_append]
        exact hpart.balanced.append hbalanced
      · rw [List.flatMap_cons, List.length_append, List.length_cons]
        omega

theorem sprout_word (hparts : ∀ part ∈ parts, part.IsDrawable) (hcount : parts.length ≤ 6) :
    Sprout (word parts) := by
  obtain ⟨hshoot, hbalanced, hlength⟩ := flatMap_text hparts
  have hshort : (parts.flatMap text).length < sproutLimit := by
    rw [sproutLimit]
    omega
  rw [word]
  split
  next hforward =>
    refine ⟨hshoot, hbalanced, ?_, hshort.le⟩
    exact List.mem_flatMap.mpr ⟨.forward, by simpa using hforward, List.mem_cons_self⟩
  next =>
    rw [List.flatMap_append]
    exact sprout_concat hshoot hbalanced hshort

theorem sprout_draw (source : Source σ) {count : Nat} (hcount : count ≤ 6) (state : σ) :
    Sprout (word (draw source count state).1) := by
  obtain ⟨hlength, hparts⟩ := drawable_draw source count state
  exact sprout_word hparts (hlength.trans_le hcount)

end BudPart

end Lindenmayer
