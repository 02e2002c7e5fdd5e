import Lindenmayer.Proofs.Branch.Nesting
import Lindenmayer.Turtle.Machine
import Mathlib.Data.List.Basic

/-!
# Paths through branches

The path of some tokens is what is left of them without the branches that are closed and without the
brackets of the others. A place is in a closed branch if it lies between an opening and a closing
with balanced commands between them.
-/

namespace Lindenmayer

namespace Command

/-- A place between an opening and the closing that belongs to it. -/
def Enclosed (commands : List Command) (index : Nat) : Prop :=
  ∃ first < index, ∃ last < commands.length, index < last ∧
    commands[first]? = some .openBranch ∧ commands[last]? = some .closeBranch ∧
      Balanced ((commands.take last).drop (first + 1))

instance (commands : List Command) (index : Nat) : Decidable (Enclosed commands index) :=
  inferInstanceAs (Decidable (∃ first < index, ∃ last < commands.length, _))

/-- Nested commands close no branch that was opened before them. -/
theorem enclosed_append {first second : List Command} {index : Nat} (hsecond : Nested second)
    (hindex : index < first.length) : Enclosed (first ++ second) index ↔ Enclosed first index := by
  constructor
  · rintro ⟨start, hstart, last, hlast, hindexLast, hopen, hclose, hbalanced⟩
    rw [List.getElem?_append_left (by omega)] at hopen
    by_cases hinside : last < first.length
    · rw [List.getElem?_append_left hinside] at hclose
      rw [List.take_append_of_le_length (by omega)] at hbalanced
      exact ⟨start, hstart, last, hinside, hindexLast, hopen, hclose, hbalanced⟩
    · exfalso
      rw [List.getElem?_append_right (by omega)] at hclose
      have hcloseAt := (List.getElem?_eq_some_iff.mp hclose).2
      have hbound := (List.getElem?_eq_some_iff.mp hclose).1
      -- Before its closing, the second part has one opening too many.
      have hdepth : 1 ≤ depth (second.take (last - first.length)) := by
        have hnext := nested_iff_beginnings.mp hsecond _
          (List.take_prefix (last - first.length + 1) second)
        rw [List.take_add_one, List.getElem?_eq_getElem hbound, hcloseAt] at hnext
        simp only [Option.toList_some, depth_append, depth_cons, depth_nil,
          weight_closeBranch] at hnext
        omega
      have hbefore : 0 ≤ depth (first.drop (start + 1)) := by
        apply nested_iff_beginnings.mp hbalanced.1
        rw [List.take_append, List.take_of_length_le (by omega),
          List.drop_append_of_le_length (by omega)]
        exact List.prefix_append _ _
      have hzero := hbalanced.2
      rw [List.take_append, List.take_of_length_le (by omega),
        List.drop_append_of_le_length (by omega), depth_append] at hzero
      omega
  · rintro ⟨start, hstart, last, hlast, hindexLast, hopen, hclose, hbalanced⟩
    refine ⟨start, hstart, last, by rw [List.length_append]; omega, hindexLast, ?_, ?_, ?_⟩
    · rw [List.getElem?_append_left (by omega), hopen]
    · rw [List.getElem?_append_left hlast, hclose]
    · rw [List.take_append_of_le_length (by omega)]
      exact hbalanced

/-- No branch is closed after the last place. -/
theorem not_enclosed_last {commands : List Command} {index : Nat}
    (hlast : commands.length ≤ index + 1) : ¬Enclosed commands index := by
  rintro ⟨_, _, closing, hclosing, hindexClosing, _⟩
  omega

theorem enclosed_branch {before inner : List Command} {index : Nat} (hinner : Balanced inner)
    (hfirst : before.length < index) (hlast : index < before.length + inner.length + 1) :
    Enclosed (before ++ (.openBranch :: inner ++ [.closeBranch])) index := by
  refine ⟨before.length, hfirst, before.length + (inner.length + 1), by simp, by omega, by simp,
    ?_, ?_⟩
  · rw [List.getElem?_append_right (by omega), Nat.add_sub_cancel_left,
      List.getElem?_append_right (by simp)]
    simp
  · rw [List.take_append, List.take_of_length_le (by omega), Nat.add_sub_cancel_left,
      List.take_append_of_le_length (by simp), List.drop_append, List.drop_of_length_le (by omega)]
    simpa using hinner

end Command

open Command

/-- The tokens that are neither brackets nor inside a branch that is closed later. -/
def path (tokens : List Token) : List Token :=
  (tokens.zipIdx.filter fun entry =>
    ¬ entry.1.command.IsBracket ∧ ¬ Enclosed (tokens.map Token.command) entry.2).map Prod.fst

@[simp] theorem path_nil : path [] = [] :=
  rfl

/-- The part of a path that comes from the tokens after some others. -/
theorem path_append (first : List Token) {second : List Token}
    (hsecond : Nested (second.map Token.command)) :
    path (first ++ second) = path first ++ ((second.zipIdx first.length).filter fun entry =>
      ¬ entry.1.command.IsBracket ∧
        ¬ Enclosed ((first ++ second).map Token.command) entry.2).map Prod.fst := by
  rw [path, List.zipIdx_append, List.filter_append, List.map_append, Nat.zero_add, path]
  congr 2
  apply List.filter_congr
  intro entry hentry
  have hindex : entry.2 < (first.map Token.command).length := by
    simpa using List.snd_lt_of_mem_zipIdx hentry
  rw [List.map_append, decide_eq_decide, enclosed_append hsecond hindex]

/-- A token that is no bracket goes to the end of the path. -/
theorem path_concat_plain (tokens : List Token) {token : Token}
    (hplain : ¬ token.command.IsBracket) : path (tokens ++ [token]) = path tokens ++ [token] := by
  have hfree : ¬ Enclosed ((tokens ++ [token]).map Token.command) tokens.length :=
    not_enclosed_last (by simp)
  have hnested : Nested ([token].map Token.command) := (balanced_singleton hplain).1
  rw [path_append tokens hnested, List.zipIdx_cons, List.filter_cons,
    if_pos (decide_eq_true ⟨hplain, hfree⟩)]
  rfl

theorem path_concat_open (tokens : List Token) {token : Token}
    (hopen : token.command = .openBranch) : path (tokens ++ [token]) = path tokens := by
  have hnested : Nested ([token].map Token.command) := by
    rw [List.map_singleton, hopen]
    decide
  rw [path_append tokens hnested]
  simp [hopen, IsBracket]

section Branch

variable {opening closing : Token} {inner : List Token}

theorem commands_branch (hopen : opening.command = .openBranch)
    (hclose : closing.command = .closeBranch) :
    (opening :: inner ++ [closing]).map Token.command =
      .openBranch :: inner.map Token.command ++ [.closeBranch] := by
  simp [hopen, hclose]

/-- What is no bracket of a closed branch lies between its brackets. -/
theorem enclosed_of_branch {tokens : List Token} {token : Token} {index : Nat}
    (hopen : opening.command = .openBranch) (hclose : closing.command = .closeBranch)
    (hinner : Balanced (inner.map Token.command)) (hindex : tokens.length ≤ index)
    (htoken : (tokens ++ (opening :: inner ++ [closing]))[index]? = some token)
    (hplain : ¬token.command.IsBracket) :
    Enclosed ((tokens ++ (opening :: inner ++ [closing])).map Token.command) index := by
  obtain ⟨place, rfl⟩ := Nat.exists_eq_add_of_le hindex
  rw [List.getElem?_append_right hindex, Nat.add_sub_cancel_left] at htoken
  have hfirst : place ≠ 0 := by
    rintro rfl
    obtain rfl := Option.some.inj htoken
    exact hplain (Or.inl hopen)
  have hlast : place ≠ inner.length + 1 := by
    rintro rfl
    rw [List.getElem?_append_right (by simp)] at htoken
    simp only [List.length_cons, Nat.sub_self, List.getElem?_cons_zero,
      Option.some.injEq] at htoken
    exact hplain (Or.inr (htoken ▸ hclose))
  have hbound := (List.getElem?_eq_some_iff.mp htoken).1
  simp only [List.length_append, List.length_cons, List.length_nil] at hbound
  rw [List.map_append, commands_branch hopen hclose]
  apply enclosed_branch hinner <;> rw [List.length_map]
  · omega
  · rw [List.length_map]
    omega

/-- A closed branch is no part of the path. -/
theorem path_append_branch (tokens : List Token) (hopen : opening.command = .openBranch)
    (hclose : closing.command = .closeBranch) (hinner : Balanced (inner.map Token.command)) :
    path (tokens ++ (opening :: inner ++ [closing])) = path tokens := by
  rw [path_append tokens (by rw [commands_branch hopen hclose]; exact hinner.branch.1),
    List.filter_eq_nil_iff.mpr ?_, List.map_nil, List.append_nil]
  rintro ⟨token, index⟩ hentry
  rw [decide_eq_true_eq, not_and_not_right]
  intro hplain
  obtain ⟨hlow, -, hget⟩ := List.mem_zipIdx hentry
  refine enclosed_of_branch hopen hclose hinner hlow ?_ hplain
  rw [List.getElem?_append_right hlow, hget, List.getElem?_eq_getElem]

end Branch

/-- Nested tokens are put together from plain tokens, openings and whole branches. -/
theorem nested_induction {motive : List Token → Prop} (nil : motive [])
    (plain : ∀ tokens token, ¬ token.command.IsBracket → motive tokens →
      motive (tokens ++ [token]))
    (opened : ∀ tokens token, token.command = .openBranch → motive tokens →
      motive (tokens ++ [token]))
    (branch : ∀ tokens opening inner closing, opening.command = .openBranch →
      closing.command = .closeBranch → Balanced (inner.map Token.command) → motive tokens →
      motive (tokens ++ (opening :: inner ++ [closing])))
    (tokens : List Token) (nested : Nested (tokens.map Token.command)) : motive tokens := by
  induction hlength : tokens.length using Nat.strongRecOn generalizing tokens with
  | ind length ih =>
    rcases tokens.eq_nil_or_concat' with rfl | ⟨front, last, rfl⟩
    · exact nil
    · rw [List.map_append, List.map_singleton] at nested
      obtain ⟨hfront, hdepth⟩ := nested_concat.mp nested
      have hshorter : front.length < length := by simp [← hlength]
      by_cases hplain : last.command.IsBracket
      · rcases hplain with hopen | hclose
        · exact opened front last hopen (ih _ hshorter _ hfront rfl)
        · rw [hclose, weight_closeBranch] at hdepth
          -- The closing ends the innermost open branch, and fewer tokens come before it.
          obtain ⟨before, inner, hsplit, hinner⟩ := hfront.exists_open (by omega)
          obtain ⟨tokens, rest, rfl, rfl, hrest⟩ := List.map_eq_append_iff.mp hsplit
          obtain ⟨opening, branchTokens, rfl, hopening, rfl⟩ := List.map_eq_cons_iff.mp hrest
          have hbefore : Nested (tokens.map Token.command) := by
            rw [List.map_append] at hfront
            exact hfront.beginning (List.prefix_append _ _)
          rw [List.append_assoc]
          exact branch tokens opening branchTokens last hopening hclose hinner
            (ih _ (by simp at hshorter; omega) _ hbefore rfl)
      · exact plain front last hplain (ih _ hshorter _ hfront rfl)

end Lindenmayer
