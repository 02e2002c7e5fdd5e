import Lindenmayer.Proofs.Branch.Nesting
import Lindenmayer.Proofs.Turtle.Symbols
import Lindenmayer.Turtle.Machine
import Mathlib.Data.List.Induction

/-!
# Runs of the drawing machine

What one token does to the machine, and what follows for runs: the number of open branches is the
depth of the commands, branches that were open before a run stay where they are below those that it
opens, and what was drawn before a run has no influence on it.
-/

namespace Lindenmayer

variable {μ : Type}

/-- The segment that a token draws, if it draws one. -/
def State.drawing (state : State μ) (token : Token) : List (Segment μ) :=
  if token.command = .forward then [state.segment token.parameter] else []

/-- The number of steps forward among some tokens. -/
def forwardCount (tokens : List Token) : Nat :=
  tokens.countP fun token => token.command = .forward

theorem forwardCount_eq_count (tokens : List Token) :
    forwardCount tokens = (tokens.map Token.symbol).count (Text.ofString "F") := by
  have hcount := @Token.count_command .forward 'F' rfl tokens
  rw [List.count, List.countP_map] at hcount
  exact hcount

namespace Machine

variable {setup : Setup μ} {machine next last : Machine μ} {token : Token} {tokens : List Token}

theorem step_open (setup : Setup μ) (machine : Machine μ) (hopen : token.command = .openBranch) :
    machine.step setup token =
      .ok ⟨machine.state, machine.state :: machine.branches, machine.drawn, machine.index + 1⟩ := by
  rw [step, hopen]

theorem step_plain (setup : Setup μ) (machine : Machine μ) (hplain : ¬ token.command.IsBracket) :
    machine.step setup token =
      (machine.state.obey setup token.command token.parameter).map fun state =>
        ⟨state, machine.branches, machine.state.drawing token ++ machine.drawn,
          machine.index + 1⟩ := by
  unfold step State.drawing
  cases hcommand : token.command with
  | openBranch => exact absurd (Or.inl hcommand) hplain
  | closeBranch => exact absurd (Or.inr hcommand) hplain
  | _ => rfl

/-- Every way in which a token can be read. -/
theorem step_eq_ok (hstep : machine.step setup token = .ok next) :
    (token.command = .openBranch ∧ next =
      ⟨machine.state, machine.state :: machine.branches, machine.drawn, machine.index + 1⟩) ∨
    (token.command = .closeBranch ∧ ∃ state branches, machine.branches = state :: branches ∧
      next = ⟨state, branches, machine.drawn, machine.index + 1⟩) ∨
    (¬ token.command.IsBracket ∧ ∃ state,
      machine.state.obey setup token.command token.parameter = .ok state ∧
      next = ⟨state, machine.branches, machine.state.drawing token ++ machine.drawn,
        machine.index + 1⟩) := by
  by_cases hplain : token.command.IsBracket
  · rcases hplain with hopen | hclose
    · rw [step_open setup machine hopen] at hstep
      exact Or.inl ⟨hopen, (Except.ok.inj hstep).symm⟩
    · rw [step, hclose] at hstep
      cases hbranches : machine.branches with
      | nil => simp [hbranches] at hstep
      | cons state branches =>
          simp only [hbranches, Except.ok.injEq] at hstep
          exact Or.inr (Or.inl ⟨hclose, state, branches, rfl, hstep.symm⟩)
  · rw [step_plain setup machine hplain] at hstep
    cases hobey : machine.state.obey setup token.command token.parameter with
    | error fault => simp [hobey, Except.map] at hstep
    | ok state =>
        simp only [hobey, Except.map, Except.ok.injEq] at hstep
        exact Or.inr (Or.inr ⟨hplain, state, rfl, hstep.symm⟩)

theorem run_cons_eq_ok :
    machine.run setup (token :: tokens) = .ok last ↔
      ∃ next, machine.step setup token = .ok next ∧ next.run setup tokens = .ok last := by
  rw [run]
  cases machine.step setup token <;> simp

theorem run_append_eq_ok {first second : List Token} :
    machine.run setup (first ++ second) = .ok last ↔
      ∃ middle, machine.run setup first = .ok middle ∧ middle.run setup second = .ok last := by
  rw [run_append]
  cases machine.run setup first <;> simp [Except.bind]

theorem run_singleton (setup : Setup μ) (machine : Machine μ) (token : Token) :
    machine.run setup [token] = machine.step setup token := by
  rw [run]
  cases machine.step setup token <;> rfl

/-- A token opens or closes a branch, or leaves all of them alone. -/
theorem length_branches_step (hstep : machine.step setup token = .ok next) :
    (next.branches.length : Int) = machine.branches.length + token.command.weight := by
  rcases step_eq_ok hstep with ⟨hopen, rfl⟩ | ⟨hclose, state, branches, hbranches, rfl⟩ |
    ⟨hplain, state, _, rfl⟩
  · simp [hopen]
  · simp only [hclose, hbranches, List.length_cons, Command.weight_closeBranch]
    omega
  · simp [Command.weight_of_not_isBracket hplain]

/-- The open branches after a run are counted by the depth of its commands. -/
theorem length_branches_run (hrun : machine.run setup tokens = .ok last) :
    (last.branches.length : Int) =
      machine.branches.length + Command.depth (tokens.map Token.command) := by
  induction tokens generalizing machine with
  | nil =>
      rw [run_nil, Except.ok.injEq] at hrun
      simp [hrun]
  | cons token tokens ih =>
      obtain ⟨next, hstep, hrest⟩ := run_cons_eq_ok.mp hrun
      rw [ih hrest, length_branches_step hstep, List.map_cons, Command.depth_cons]
      omega

/-- A run that starts without open branches closes none before it opens it. -/
theorem nested_of_run (hrun : (initial setup).run setup tokens = .ok last) :
    Command.Nested (tokens.map Token.command) := by
  intro count _
  rw [← List.take_append_drop count tokens] at hrun
  obtain ⟨middle, hmiddle, _⟩ := run_append_eq_ok.mp hrun
  -- The depth of the first tokens is a number of open branches, so it is not negative.
  have hlength := length_branches_run hmiddle
  rw [← List.map_take]
  simp only [initial, List.length_nil] at hlength
  omega

/-- Nested tokens leave the branches alone that were open before them. -/
theorem branches_run_of_nested (hnested : Command.Nested (tokens.map Token.command))
    (hrun : machine.run setup tokens = .ok last) :
    ∃ opened, last.branches = opened ++ machine.branches := by
  induction tokens using List.reverseRecOn generalizing last with
  | nil =>
      rw [run_nil, Except.ok.injEq] at hrun
      exact ⟨[], by simp [hrun]⟩
  | append_singleton tokens token ih =>
      rw [List.map_append, List.map_singleton] at hnested
      obtain ⟨hfront, hdepth⟩ := Command.nested_concat.mp hnested
      obtain ⟨middle, hmiddle, hstep⟩ := run_append_eq_ok.mp hrun
      rw [run_singleton] at hstep
      obtain ⟨opened, hopened⟩ := ih hfront hmiddle
      rcases step_eq_ok hstep with ⟨_, rfl⟩ | ⟨hclose, state, branches, hbranches, rfl⟩ |
        ⟨_, state, _, rfl⟩
      · exact ⟨middle.state :: opened, by simp [hopened]⟩
      · -- The branch that is closed was opened by the run itself, or the depth would be negative.
        have hlength := length_branches_run hmiddle
        rw [hclose, Command.weight_closeBranch] at hdepth
        rw [hopened, List.length_append] at hlength
        cases opened with
        | nil =>
            simp only [List.length_nil] at hlength
            omega
        | cons first opened =>
            rw [hopened, List.cons_append, List.cons.injEq] at hbranches
            exact ⟨opened, hbranches.2.symm⟩
      · exact ⟨opened, hopened⟩

/-- After balanced tokens the same branches are open as before. -/
theorem branches_run_of_balanced (hbalanced : Command.Balanced (tokens.map Token.command))
    (hrun : machine.run setup tokens = .ok last) : last.branches = machine.branches := by
  obtain ⟨opened, hopened⟩ := branches_run_of_nested hbalanced.1 hrun
  have hlength := length_branches_run hrun
  rw [hbalanced.2, hopened, List.length_append] at hlength
  have hnone : opened = [] := List.length_eq_zero_iff.mp (by omega)
  rw [hopened, hnone, List.nil_append]

/-- A branch that is closed brings the turtle back and the branches with it. -/
theorem run_branch {opening closing : Token} {inner : List Token}
    (hopen : opening.command = .openBranch) (hclose : closing.command = .closeBranch)
    (hinner : Command.Balanced (inner.map Token.command))
    (hrun : machine.run setup (opening :: inner ++ [closing]) = .ok last) :
    last.state = machine.state ∧ last.branches = machine.branches := by
  obtain ⟨inside, hinside, hend⟩ := run_append_eq_ok.mp hrun
  obtain ⟨entered, hentered, hbody⟩ := run_cons_eq_ok.mp hinside
  rw [step_open setup machine hopen, Except.ok.injEq] at hentered
  have hbranches := branches_run_of_balanced hinner hbody
  rw [← hentered] at hbranches
  rw [run_singleton, step, hclose, hbranches] at hend
  simp only [Except.ok.injEq] at hend
  simp [← hend]

/-- What a token draws does not depend on what was drawn before. -/
theorem step_relocate (hstep : machine.step setup token = .ok next) :
    ∃ own, next.drawn = own ++ machine.drawn ∧ own.length = forwardCount [token] ∧
      ∀ drawn index, step setup ⟨machine.state, machine.branches, drawn, index⟩ token =
        .ok ⟨next.state, next.branches, own ++ drawn, index + 1⟩ := by
  rcases step_eq_ok hstep with ⟨hopen, rfl⟩ | ⟨hclose, state, branches, hbranches, rfl⟩ |
    ⟨hplain, state, hobey, rfl⟩
  · exact ⟨[], rfl, by simp [forwardCount, hopen], fun drawn index => step_open setup _ hopen⟩
  · refine ⟨[], rfl, by simp [forwardCount, hclose], fun drawn index => ?_⟩
    rw [step, hclose, hbranches]
    rfl
  · refine ⟨machine.state.drawing token, rfl, ?_, fun drawn index => ?_⟩
    · simp only [State.drawing, forwardCount, List.countP_singleton, decide_eq_true_eq]
      split <;> rfl
    · rw [step_plain setup _ hplain, hobey]
      rfl

/-- What a run draws does not depend on what was drawn before, and it is one segment for each step
forward. -/
theorem run_relocate (hrun : machine.run setup tokens = .ok last) :
    ∃ own, last.drawn = own ++ machine.drawn ∧ own.length = forwardCount tokens ∧
      ∀ drawn index, run setup ⟨machine.state, machine.branches, drawn, index⟩ tokens =
        .ok ⟨last.state, last.branches, own ++ drawn, index + tokens.length⟩ := by
  induction tokens generalizing machine with
  | nil =>
      rw [run_nil, Except.ok.injEq] at hrun
      subst hrun
      exact ⟨[], rfl, rfl, fun drawn index => rfl⟩
  | cons token tokens ih =>
      obtain ⟨next, hstep, hrest⟩ := run_cons_eq_ok.mp hrun
      -- Segments are put in front, so those of the first token come last.
      obtain ⟨first, hfirst, hfirstLength, hfirstRun⟩ := step_relocate hstep
      obtain ⟨later, hlater, hlaterLength, hlaterRun⟩ := ih hrest
      refine ⟨later ++ first, ?_, ?_, fun drawn index => ?_⟩
      · rw [hlater, hfirst, List.append_assoc]
      · rw [List.length_append, hfirstLength, hlaterLength, forwardCount, forwardCount,
          forwardCount, ← List.countP_append, List.countP_append]
        simp [List.countP_cons, Nat.add_comm]
      · refine run_cons_eq_ok.mpr ⟨_, hfirstRun drawn index, ?_⟩
        rw [hlaterRun, List.append_assoc, List.length_cons]
        congr 2
        omega

/-- A run counts the tokens that it reads. -/
theorem index_run (hrun : machine.run setup tokens = .ok last) :
    last.index = machine.index + tokens.length := by
  obtain ⟨own, -, -, hmoved⟩ := run_relocate hrun
  have hsame := hmoved machine.drawn machine.index
  rw [hrun] at hsame
  exact congrArg Machine.index (Except.ok.inj hsame)

end Machine

theorem interpret_eq_ok {setup : Setup μ} {tokens : List Token} {segments : List (Segment μ)} :
    (interpret setup tokens).outcome = .ok segments ↔
      ∃ machine, (Machine.initial setup).run setup tokens = .ok machine ∧
        machine.segments = segments := by
  unfold interpret
  cases (Machine.initial setup).run setup tokens <;> simp

end Lindenmayer
