import Lindenmayer.Turtle.State
import Mathlib

/-!
# Nesting of branches

The depth of some commands is the number of branches that they open less the number of those that
they close. Commands are nested if no closing comes before its opening, and balanced if every branch
is closed in the end. Nested commands with an open branch fall into what comes before the innermost
open one and the balanced commands inside it.
-/

namespace Lindenmayer.Command

/-- How a command changes the number of open branches. -/
def weight : Command → Int
  | .openBranch => 1
  | .closeBranch => -1
  | _ => 0

/-- Whether a command opens or closes a branch. -/
def IsBracket (command : Command) : Prop :=
  command = .openBranch ∨ command = .closeBranch

instance (command : Command) : Decidable command.IsBracket :=
  inferInstanceAs (Decidable (_ ∨ _))

@[simp] theorem weight_openBranch : weight .openBranch = 1 :=
  rfl

@[simp] theorem weight_closeBranch : weight .closeBranch = -1 :=
  rfl

theorem weight_of_not_isBracket {command : Command} (hplain : ¬ command.IsBracket) :
    command.weight = 0 := by
  cases command with
  | openBranch => exact absurd (Or.inl rfl) hplain
  | closeBranch => exact absurd (Or.inr rfl) hplain
  | _ => rfl

/-- How some commands change the number of open branches. -/
def depth (commands : List Command) : Int :=
  (commands.map weight).sum

@[simp] theorem depth_nil : depth [] = 0 :=
  rfl

@[simp] theorem depth_cons (command : Command) (commands : List Command) :
    depth (command :: commands) = command.weight + depth commands := by
  simp [depth]

@[simp] theorem depth_append (first second : List Command) :
    depth (first ++ second) = depth first + depth second := by
  simp [depth]

theorem depth_eq_count (commands : List Command) :
    depth commands = commands.count .openBranch - commands.count .closeBranch := by
  induction commands with
  | nil => rfl
  | cons command commands ih =>
      rw [depth_cons, ih, List.count_cons, List.count_cons]
      by_cases hbracket : command.IsBracket
      · rcases hbracket with rfl | rfl
        · simp only [weight_openBranch, beq_self_eq_true, if_true, reduceCtorEq, beq_iff_eq,
            if_false]
          omega
        · simp only [weight_closeBranch, beq_self_eq_true, if_true, reduceCtorEq, beq_iff_eq,
            if_false]
          omega
      · obtain ⟨hopen, hclose⟩ := not_or.mp hbracket
        rw [weight_of_not_isBracket hbracket, if_neg (by simpa using hopen),
          if_neg (by simpa using hclose)]
        omega

/-- No closing comes before its opening. -/
def Nested (commands : List Command) : Prop :=
  ∀ count ≤ commands.length, 0 ≤ depth (commands.take count)

/-- Every closing has its opening, and every opening its closing. -/
def Balanced (commands : List Command) : Prop :=
  Nested commands ∧ depth commands = 0

instance (commands : List Command) : Decidable (Nested commands) :=
  inferInstanceAs (Decidable (∀ count ≤ commands.length, _))

instance (commands : List Command) : Decidable (Balanced commands) :=
  inferInstanceAs (Decidable (_ ∧ _))

theorem nested_iff_beginnings {commands : List Command} :
    Nested commands ↔ ∀ before, before <+: commands → 0 ≤ depth before := by
  constructor
  · intro hnested before hbefore
    rw [List.prefix_iff_eq_take.mp hbefore]
    exact hnested _ hbefore.length_le
  · intro hprefix count _
    exact hprefix _ (List.take_prefix count commands)

theorem Nested.depth_nonneg {commands : List Command} (hnested : Nested commands) :
    0 ≤ depth commands :=
  nested_iff_beginnings.mp hnested _ List.prefix_rfl

theorem Nested.beginning {before commands : List Command} (hnested : Nested commands)
    (hbefore : before <+: commands) : Nested before :=
  nested_iff_beginnings.mpr fun _ hshorter =>
    nested_iff_beginnings.mp hnested _ (hshorter.trans hbefore)

@[simp] theorem nested_nil : Nested [] :=
  nested_iff_beginnings.mpr fun before hbefore => by simp [List.prefix_nil.mp hbefore]

/-- What follows nested commands may close what they leave open. -/
theorem nested_append {first second : List Command} :
    Nested (first ++ second) ↔
      Nested first ∧ ∀ before, before <+: second → 0 ≤ depth first + depth before := by
  constructor
  · intro hnested
    refine ⟨hnested.beginning (List.prefix_append first second), fun before hbefore => ?_⟩
    rw [← depth_append]
    exact nested_iff_beginnings.mp hnested _ ((List.prefix_append_right_inj first).mpr hbefore)
  · rintro ⟨hfirst, hsecond⟩
    apply nested_iff_beginnings.mpr
    intro before hbefore
    rcases List.prefix_or_prefix_of_prefix hbefore (List.prefix_append first second) with
      hshort | ⟨rest, rfl⟩
    · exact nested_iff_beginnings.mp hfirst before hshort
    · rw [depth_append]
      exact hsecond rest ((List.prefix_append_right_inj first).mp hbefore)

theorem nested_concat {commands : List Command} {command : Command} :
    Nested (commands ++ [command]) ↔ Nested commands ∧ 0 ≤ depth commands + command.weight := by
  rw [nested_append]
  refine and_congr_right fun hnested => ⟨fun hall => ?_, fun hlast before hbefore => ?_⟩
  · simpa using hall [command] List.prefix_rfl
  · rcases List.prefix_cons_iff.mp hbefore with rfl | ⟨rest, rfl, hrest⟩
    · simpa using hnested.depth_nonneg
    · simpa [List.prefix_nil.mp hrest] using hlast

@[simp] theorem balanced_nil : Balanced [] :=
  ⟨nested_nil, rfl⟩

theorem Balanced.append {first second : List Command} (hfirst : Balanced first)
    (hsecond : Balanced second) : Balanced (first ++ second) := by
  refine ⟨nested_append.mpr ⟨hfirst.1, fun before hbefore => ?_⟩, ?_⟩
  · rw [hfirst.2, Int.zero_add]
    exact nested_iff_beginnings.mp hsecond.1 before hbefore
  · rw [depth_append, hfirst.2, hsecond.2, Int.zero_add]

theorem balanced_singleton {command : Command} (hplain : ¬ command.IsBracket) :
    Balanced [command] := by
  have hweight := weight_of_not_isBracket hplain
  exact ⟨nested_concat.mpr ⟨nested_nil, by simp [hweight]⟩, by simp [hweight]⟩

/-- A branch around balanced commands is balanced. -/
theorem Balanced.branch {inner : List Command} (hinner : Balanced inner) :
    Balanced (.openBranch :: inner ++ [.closeBranch]) := by
  have hopen : Nested (.openBranch :: inner) := by
    refine (@nested_append [.openBranch] inner).mpr ⟨by decide, fun before hbefore => ?_⟩
    have hnonneg := nested_iff_beginnings.mp hinner.1 before hbefore
    simp only [depth_cons, depth_nil, weight_openBranch]
    omega
  have hdepth := hinner.2
  exact ⟨nested_concat.mpr ⟨hopen, by simp [hdepth]⟩, by simp [hdepth]⟩

/-- Nested commands that leave a branch open divide at the opening of the innermost one. -/
theorem Nested.exists_open {commands : List Command} (hnested : Nested commands)
    (hopen : 0 < depth commands) :
    ∃ before inner, commands = before ++ .openBranch :: inner ∧ Balanced inner := by
  induction hlength : commands.length using Nat.strongRecOn generalizing commands with
  | ind length ih =>
    rcases commands.eq_nil_or_concat' with rfl | ⟨front, last, rfl⟩
    · simp at hopen
    · obtain ⟨hfront, _⟩ := nested_concat.mp hnested
      have hshorter : front.length < length := by simp [← hlength]
      by_cases hplain : last.IsBracket
      · rcases hplain with rfl | rfl
        · exact ⟨front, [], rfl, balanced_nil⟩
        · -- The closing ends a branch inside the one to be found, so two openings are looked for.
          simp only [depth_append, depth_cons, depth_nil, weight_closeBranch] at hopen
          obtain ⟨middle, inner, rfl, hinner⟩ := ih _ hshorter hfront (by omega) rfl
          have hmiddle : Nested middle := hfront.beginning (List.prefix_append _ _)
          have hinnerDepth := hinner.2
          simp only [depth_append, depth_cons, weight_openBranch] at hopen
          obtain ⟨before, outer, rfl, houter⟩ :=
            ih _ (by simp at hshorter; omega) hmiddle (by omega) rfl
          exact ⟨before, outer ++ (.openBranch :: inner ++ [.closeBranch]), by simp,
            houter.append hinner.branch⟩
      · have hweight := weight_of_not_isBracket hplain
        obtain ⟨before, inner, rfl, hinner⟩ :=
          ih _ hshorter hfront (by simpa [hweight] using hopen) rfl
        exact ⟨before, inner ++ [last], by simp, hinner.append (balanced_singleton hplain)⟩

/-- No closing comes before its opening when `start` branches are open before the commands. -/
def NestedFrom (start : Int) (commands : List Command) : Prop :=
  ∀ before, before <+: commands → 0 ≤ start + depth before

theorem nested_iff_nestedFrom {commands : List Command} :
    Nested commands ↔ NestedFrom 0 commands := by
  simp only [nested_iff_beginnings, NestedFrom, Int.zero_add]

theorem NestedFrom.start_nonneg {start : Int} {commands : List Command}
    (hnested : NestedFrom start commands) : 0 ≤ start := by
  simpa using hnested [] List.nil_prefix

theorem nestedFrom_nil {start : Int} : NestedFrom start [] ↔ 0 ≤ start := by
  refine ⟨NestedFrom.start_nonneg, fun hstart before hbefore => ?_⟩
  simpa [List.prefix_nil.mp hbefore] using hstart

theorem nestedFrom_cons {start : Int} {command : Command} {commands : List Command} :
    NestedFrom start (command :: commands) ↔
      0 ≤ start ∧ NestedFrom (start + command.weight) commands := by
  constructor
  · intro hnested
    refine ⟨hnested.start_nonneg, fun before hbefore => ?_⟩
    have hall := hnested (command :: before) (List.cons_prefix_cons.mpr ⟨rfl, hbefore⟩)
    rw [depth_cons] at hall
    omega
  · rintro ⟨hstart, hrest⟩ before hbefore
    rcases List.prefix_cons_iff.mp hbefore with rfl | ⟨rest, rfl, hprefix⟩
    · simpa using hstart
    · have hall := hrest rest hprefix
      rw [depth_cons]
      omega

theorem nestedFrom_append {start : Int} {first second : List Command} :
    NestedFrom start (first ++ second) ↔
      NestedFrom start first ∧ NestedFrom (start + depth first) second := by
  induction first generalizing start with
  | nil =>
      simp only [List.nil_append, depth_nil, Int.add_zero, nestedFrom_nil]
      exact ⟨fun hsecond => ⟨hsecond.start_nonneg, hsecond⟩, fun hboth => hboth.2⟩
  | cons command first ih =>
      rw [List.cons_append, nestedFrom_cons, nestedFrom_cons, ih, depth_cons, and_assoc,
        Int.add_assoc]

/-- Commands that are no brackets do not matter for nesting. -/
theorem nestedFrom_filter {keep : Command → Bool}
    (hkeep : ∀ command : Command, command.IsBracket → keep command) {start : Int}
    {commands : List Command} :
    NestedFrom start (commands.filter keep) ↔ NestedFrom start commands := by
  induction commands generalizing start with
  | nil => rfl
  | cons command commands ih =>
      cases hcommand : keep command with
      | true => rw [List.filter_cons_of_pos hcommand, nestedFrom_cons, nestedFrom_cons, ih]
      | false =>
          have hplain : ¬ command.IsBracket := fun hbracket => by
            simp [hkeep command hbracket] at hcommand
          rw [List.filter_cons_of_neg (by simp [hcommand]), ih, nestedFrom_cons,
            weight_of_not_isBracket hplain, Int.add_zero]
          exact ⟨fun hrest => ⟨hrest.start_nonneg, hrest⟩, fun hboth => hboth.2⟩

theorem depth_filter {keep : Command → Bool}
    (hkeep : ∀ command : Command, command.IsBracket → keep command) (commands : List Command) :
    depth (commands.filter keep) = depth commands := by
  induction commands with
  | nil => rfl
  | cons command commands ih =>
      cases hcommand : keep command with
      | true => rw [List.filter_cons_of_pos hcommand, depth_cons, depth_cons, ih]
      | false =>
          have hplain : ¬ command.IsBracket := fun hbracket => by
            simp [hkeep command hbracket] at hcommand
          rw [List.filter_cons_of_neg (by simp [hcommand]), ih, depth_cons,
            weight_of_not_isBracket hplain, Int.zero_add]

theorem balanced_filter {keep : Command → Bool}
    (hkeep : ∀ command : Command, command.IsBracket → keep command) {commands : List Command} :
    Balanced (commands.filter keep) ↔ Balanced commands := by
  rw [Balanced, Balanced, nested_iff_nestedFrom, nested_iff_nestedFrom, nestedFrom_filter hkeep,
    depth_filter hkeep]

/-- The commands close the branches that are open before them, and all of their own. -/
def Closes (start : Int) (commands : List Command) : Prop :=
  NestedFrom start commands ∧ depth commands = -start

theorem Closes.cons {start : Int} {command : Command} {commands : List Command}
    (hrest : Closes (start + command.weight) commands) (hstart : 0 ≤ start) :
    Closes start (command :: commands) := by
  refine ⟨nestedFrom_cons.mpr ⟨hstart, hrest.1⟩, ?_⟩
  rw [depth_cons, hrest.2]
  omega

theorem Closes.plain {start : Int} {command : Command} {commands : List Command}
    (hrest : Closes start commands) (hplain : ¬ command.IsBracket) :
    Closes start (command :: commands) := by
  refine .cons ?_ hrest.1.start_nonneg
  rwa [weight_of_not_isBracket hplain, Int.add_zero]

theorem succ_add_weight_closeBranch (depth : Nat) :
    ((depth + 1 : Nat) : Int) + weight .closeBranch = depth := by
  rw [weight_closeBranch]
  omega

theorem Closes.close {depth : Nat} {commands : List Command} (hrest : Closes depth commands) :
    Closes (depth + 1 : Nat) (.closeBranch :: commands) := by
  refine .cons ?_ (Int.natCast_nonneg _)
  rwa [succ_add_weight_closeBranch]

theorem Closes.balanced {commands : List Command} (hcloses : Closes 0 commands) :
    Balanced commands :=
  ⟨nested_iff_nestedFrom.mpr hcloses.1, hcloses.2⟩

/-- No more than `limit` branches are open at once when `start` branches are open before the
commands. -/
def OpensWithin (limit start : Int) (commands : List Command) : Prop :=
  ∀ before, before <+: commands → start + depth before ≤ limit

theorem OpensWithin.start_le {limit start : Int} {commands : List Command}
    (hwithin : OpensWithin limit start commands) : start ≤ limit := by
  simpa using hwithin [] List.nil_prefix

theorem opensWithin_nil {limit start : Int} : OpensWithin limit start [] ↔ start ≤ limit := by
  refine ⟨OpensWithin.start_le, fun hstart before hbefore => ?_⟩
  simpa [List.prefix_nil.mp hbefore] using hstart

theorem OpensWithin.cons {limit start : Int} {command : Command} {commands : List Command}
    (hrest : OpensWithin limit (start + command.weight) commands) (hstart : start ≤ limit) :
    OpensWithin limit start (command :: commands) := by
  intro before hbefore
  rcases List.prefix_cons_iff.mp hbefore with rfl | ⟨rest, rfl, hprefix⟩
  · simpa using hstart
  · have hopen := hrest rest hprefix
    rw [depth_cons]
    omega

theorem OpensWithin.plain {limit start : Int} {command : Command} {commands : List Command}
    (hrest : OpensWithin limit start commands) (hplain : ¬ command.IsBracket) :
    OpensWithin limit start (command :: commands) := by
  refine .cons ?_ hrest.start_le
  rwa [weight_of_not_isBracket hplain, Int.add_zero]

theorem OpensWithin.close {limit depth : Nat} {commands : List Command}
    (hrest : OpensWithin limit depth commands) (hdepth : depth < limit) :
    OpensWithin limit (depth + 1 : Nat) (.closeBranch :: commands) := by
  refine .cons ?_ (Int.ofNat_le.mpr hdepth)
  rwa [succ_add_weight_closeBranch]

end Lindenmayer.Command
