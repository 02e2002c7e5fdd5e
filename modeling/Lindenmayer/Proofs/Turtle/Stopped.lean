import Lindenmayer.Proofs.Turtle.Progress

/-!
# Runs that are stopped

What can stop the drawing machine, and what a run has to do with one that starts later: on top of
open branches, of segments already drawn and of tokens already read.
-/

namespace Lindenmayer

variable {μ : Type} {setup : Setup μ}

theorem cosineSine_eq_error {degrees : Float} {fault : Fault}
    (hangle : cosineSine degrees = .error fault) : fault = .infiniteAngle := by
  rw [cosineSine] at hangle
  split at hangle
  next => exact (Except.error.inj hangle).symm
  next => cases hangle

/-- Only a turn through an infinite angle is not obeyed. -/
theorem State.obey_eq_error {state : State μ} {token : Token} {fault : Fault}
    (hobey : state.obey setup token.command token.parameter = .error fault) :
    fault = .infiniteAngle ∧ ¬ setup.CanObey token := by
  constructor
  · cases hcommand : token.command with
    | turn axis backward =>
        rw [hcommand, obey, Except.map_eq_error, Vec3.rotate, Except.map_eq_error, rotation,
          Except.map_eq_error] at hobey
        exact cosineSine_eq_error hobey
    | _ =>
        rw [hcommand] at hobey
        cases hobey
  · intro hcan
    obtain ⟨next, hnext⟩ := exists_obey state hcan
    rw [hnext] at hobey
    cases hobey

namespace Machine

variable {machine lower next last : Machine μ} {token : Token} {tokens : List Token} {fault : Fault}

/-- Every way in which a token can stop the machine. -/
theorem step_eq_error (hstep : machine.step setup token = .error fault) :
    (token.command = .closeBranch ∧ machine.branches = [] ∧
      fault = .branchUnderflow machine.index) ∨
    (¬ token.command.IsBracket ∧
      machine.state.obey setup token.command token.parameter = .error fault) := by
  by_cases hplain : token.command.IsBracket
  · rcases hplain with hopen | hclose
    · rw [step_open setup machine hopen] at hstep
      exact nomatch hstep
    · rw [step, hclose] at hstep
      cases hbranches : machine.branches with
      | nil =>
          simp only [hbranches, Except.error.injEq] at hstep
          exact .inl ⟨hclose, rfl, hstep.symm⟩
      | cons state branches => simp [hbranches] at hstep
  · rw [step_plain setup machine hplain, Except.map_eq_error] at hstep
    exact .inr ⟨hplain, hstep⟩

theorem run_cons_eq_error :
    machine.run setup (token :: tokens) = .error fault ↔
      machine.step setup token = .error fault ∨
        ∃ next, machine.step setup token = .ok next ∧ next.run setup tokens = .error fault := by
  rw [run]
  cases machine.step setup token <;> simp

/-- A run that is stopped is stopped by a token after some others. -/
theorem exists_step_eq_error (hrun : machine.run setup tokens = .error fault) :
    ∃ before token after middle, tokens = before ++ token :: after ∧
      machine.run setup before = .ok middle ∧ middle.step setup token = .error fault := by
  induction tokens generalizing machine with
  | nil => exact nomatch hrun
  | cons token tokens ih =>
      rcases run_cons_eq_error.mp hrun with hstep | ⟨next, hstep, hlater⟩
      · exact ⟨[], token, tokens, machine, rfl, rfl, hstep⟩
      · obtain ⟨before, stopping, after, middle, rfl, hbefore, hstop⟩ := ih hlater
        exact ⟨token :: before, stopping, after, middle, rfl,
          run_cons_eq_ok.mpr ⟨next, hstep, hbefore⟩, hstop⟩

/-- A run of tokens that can be obeyed is only stopped by a missing branch. -/
theorem exists_underflow_of_canObey (hobey : ∀ token ∈ tokens, setup.CanObey token)
    (hrun : machine.run setup tokens = .error fault) : ∃ index, fault = .branchUnderflow index := by
  obtain ⟨before, token, after, middle, rfl, -, hstep⟩ := exists_step_eq_error hrun
  rcases step_eq_error hstep with ⟨-, -, hfault⟩ | ⟨-, hstopped⟩
  · exact ⟨middle.index, hfault⟩
  · have htoken := hobey token (List.mem_append_right _ List.mem_cons_self)
    exact absurd htoken (State.obey_eq_error hstopped).2

/-- A run of nested tokens is not stopped by a missing branch. -/
theorem run_ne_underflow_of_nestedFrom
    (hnested : Command.NestedFrom machine.branches.length (tokens.map Token.command))
    (index : Nat) :
    machine.run setup tokens ≠ .error (.branchUnderflow index) := by
  intro hrun
  obtain ⟨before, token, after, middle, rfl, hbefore, hstep⟩ := exists_step_eq_error hrun
  rcases step_eq_error hstep with ⟨hclose, hbranches, -⟩ | ⟨-, hstopped⟩
  · -- The depth after the closing would be negative.
    rw [List.map_append, List.map_cons, Command.nestedFrom_append,
      Command.nestedFrom_cons] at hnested
    have hdepth := hnested.2.2.start_nonneg
    have hlength := length_branches_run hbefore
    rw [hbranches, List.length_nil] at hlength
    rw [hclose, Command.weight_closeBranch, ← hlength] at hdepth
    omega
  · cases (State.obey_eq_error hstopped).1

/-- The machine with what another one has left open, drawn and read before. -/
def above (machine lower : Machine μ) : Machine μ :=
  ⟨machine.state, machine.branches ++ lower.branches, machine.drawn ++ lower.drawn,
    machine.index + lower.index⟩

theorem step_above (hstep : machine.step setup token = .ok next) :
    (machine.above lower).step setup token = .ok (next.above lower) := by
  rcases step_eq_ok hstep with ⟨hopen, rfl⟩ | ⟨hclose, state, branches, hbranches, rfl⟩ |
    ⟨hplain, state, hobey, rfl⟩
  · rw [step_open setup _ hopen, above, above, Nat.add_right_comm]
    rfl
  · rw [step, hclose, above, hbranches, above, Nat.add_right_comm]
    rfl
  · rw [step_plain setup _ hplain, above, hobey, above, ← List.append_assoc, Nat.add_right_comm]
    rfl

/-- A run can start on top of what was left open, drawn and read before. -/
theorem run_above (hrun : machine.run setup tokens = .ok last) :
    (machine.above lower).run setup tokens = .ok (last.above lower) := by
  induction tokens generalizing machine with
  | nil => rw [← Except.ok.inj hrun, run_nil]
  | cons token tokens ih =>
      obtain ⟨next, hstep, hrest⟩ := run_cons_eq_ok.mp hrun
      exact run_cons_eq_ok.mpr ⟨_, step_above hstep, ih hrest⟩

/-- If no branch was open, a run that starts later underflows where it would have. -/
theorem run_above_underflow (hlower : lower.branches = []) {index : Nat}
    (hrun : machine.run setup tokens = .error (.branchUnderflow index)) :
    (machine.above lower).run setup tokens =
      .error (.branchUnderflow (index + lower.index)) := by
  obtain ⟨before, token, after, middle, rfl, hbefore, hstep⟩ := exists_step_eq_error hrun
  rw [run_append, run_above hbefore]
  refine run_cons_eq_error.mpr (.inl ?_)
  rcases step_eq_error hstep with ⟨hclose, hbranches, hfault⟩ | ⟨-, hstopped⟩
  · rw [step, hclose, above, hbranches, hlower, Fault.branchUnderflow.inj hfault]
    rfl
  · cases (State.obey_eq_error hstopped).1

end Machine

theorem outcome_interpret (setup : Setup μ) (tokens : List Token) :
    (interpret setup tokens).outcome =
      ((Machine.initial setup).run setup tokens).map Machine.segments := by
  rw [interpret]
  cases (Machine.initial setup).run setup tokens <;> rfl

end Lindenmayer
