import Lindenmayer.Proofs.Turtle.Stopped

/-!
# Branches that are missing

A drawing is stopped at the first token that closes more branches than were opened, whatever the
setup is, and if its turns have finite angles it is stopped nowhere else. What is left open at the
end is told about.
-/

namespace Lindenmayer

variable {μ : Type} {setup : Setup μ} {tokens : List Token}

/-- More branches are closed than opened. -/
def Overclosed (tokens : List Token) : Prop :=
  (tokens.map Token.symbol).count (Text.ofString "[") <
    (tokens.map Token.symbol).count (Text.ofString "]")

instance (tokens : List Token) : Decidable (Overclosed tokens) :=
  inferInstanceAs (Decidable (_ < _))

theorem depth_tokens (tokens : List Token) :
    Command.depth (tokens.map Token.command) =
      (tokens.map Token.symbol).count (Text.ofString "[") -
        (tokens.map Token.symbol).count (Text.ofString "]") := by
  have hopen := @Token.count_command .openBranch '[' rfl tokens
  have hclose := @Token.count_command .closeBranch ']' rfl tokens
  rw [Command.depth_eq_count, hopen, hclose]
  rfl

theorem overclosed_iff {tokens : List Token} :
    Overclosed tokens ↔ Command.depth (tokens.map Token.command) < 0 := by
  rw [Overclosed, depth_tokens]
  omega

/-- Tokens are nested if no beginning of them closes too much. -/
theorem nested_iff_not_overclosed :
    Command.Nested (tokens.map Token.command) ↔
      ∀ before, before <+: tokens → ¬ Overclosed before := by
  rw [Command.nested_iff_beginnings]
  constructor
  · intro hnested before hbefore
    rw [overclosed_iff]
    exact Int.not_lt.mpr (hnested _ (hbefore.map Token.command))
  · intro hclosed commands hcommands
    obtain ⟨before, hbefore, rfl⟩ := List.prefix_map_iff.mp hcommands
    exact Int.not_lt.mp (overclosed_iff.not.mp (hclosed before hbefore))

/-- The first place at which more branches are closed than opened. -/
abbrev FirstUnderflow (tokens : List Token) (index : Nat) : Prop :=
  IsLeast {index | Overclosed (tokens.take (index + 1))} index

theorem exists_firstUnderflow_iff :
    (∃ index, FirstUnderflow tokens index) ↔ ∃ before, before <+: tokens ∧ Overclosed before := by
  constructor
  · rintro ⟨index, hindex, -⟩
    exact ⟨_, List.take_prefix _ _, hindex⟩
  · rintro ⟨before, hbefore, hclosed⟩
    have hexists : ∃ index, Overclosed (tokens.take (index + 1)) := by
      cases before with
      | nil => exact absurd hclosed (by decide)
      | cons token before =>
          refine ⟨before.length, ?_⟩
          rwa [← List.length_cons (a := token), ← List.prefix_iff_eq_take.mp hbefore]
    exact ⟨Nat.find hexists, Nat.find_spec hexists, fun _ => Nat.find_min' hexists⟩

namespace Machine

/-- A run that underflows does so at the first place where too much is closed. -/
theorem firstUnderflow_of_run {index : Nat}
    (hrun : (initial setup).run setup tokens = .error (.branchUnderflow index)) :
    FirstUnderflow tokens index ∧
      ∃ token, tokens[index]? = some token ∧ token.symbol = Text.ofString "]" := by
  obtain ⟨before, token, after, middle, rfl, hbefore, hstep⟩ := exists_step_eq_error hrun
  rcases step_eq_error hstep with ⟨hclose, hbranches, hfault⟩ | ⟨-, hstopped⟩
  · have hindex : index = before.length := by
      rw [Fault.branchUnderflow.inj hfault, index_run hbefore]
      exact Nat.zero_add _
    have hdepth : 0 = Command.depth (before.map Token.command) := by
      simpa [hbranches, initial] using length_branches_run hbefore
    subst hindex
    refine ⟨⟨?_, fun earlier hearlier => ?_⟩, token, by simp,
      Token.command_eq_closeBranch_iff.mp hclose⟩
    · change Overclosed _
      rw [List.take_length_add_append, overclosed_iff]
      simp [← hdepth, hclose]
    · -- The tokens before this one were read, so nothing was closed too much among them.
      by_contra hshorter
      change Overclosed _ at hearlier
      rw [List.take_append_of_le_length (Nat.not_le.mp hshorter)] at hearlier
      exact nested_iff_not_overclosed.mp (nested_of_run hbefore) _ (List.take_prefix _ _) hearlier
  · cases (State.obey_eq_error hstopped).1

end Machine

/-- If all turns have finite angles, a drawing underflows exactly at the first place where too much
is closed. -/
theorem interpret_underflow_iff (hobey : ∀ token ∈ tokens, setup.CanObey token) {fault : Fault} :
    (interpret setup tokens).outcome = .error fault ↔
      ∃ index, fault = .branchUnderflow index ∧ FirstUnderflow tokens index := by
  rw [outcome_interpret, Except.map_eq_error]
  constructor
  · intro hrun
    obtain ⟨index, rfl⟩ := Machine.exists_underflow_of_canObey hobey hrun
    exact ⟨index, rfl, (Machine.firstUnderflow_of_run hrun).1⟩
  · rintro ⟨index, rfl, hfirst⟩
    cases hrun : (Machine.initial setup).run setup tokens with
    | ok last =>
        have hnested := nested_iff_not_overclosed.mp (Machine.nested_of_run hrun)
        exact absurd hfirst.1 (hnested _ (List.take_prefix _ _))
    | error fault =>
        obtain ⟨other, rfl⟩ := Machine.exists_underflow_of_canObey hobey hrun
        rw [(Machine.firstUnderflow_of_run hrun).1.unique hfirst]

/-- What is told about a drawing: how many branches are left open, if there are any. -/
def unclosedNotices (tokens : List Token) : List Notice :=
  let opened := (tokens.map Token.symbol).count (Text.ofString "[")
  let closed := (tokens.map Token.symbol).count (Text.ofString "]")
  if opened = closed then [] else [.unclosedBranches (opened - closed)]

theorem notices_interpret {segments : List (Segment μ)}
    (hdrawn : (interpret setup tokens).outcome = .ok segments) :
    (interpret setup tokens).notices = unclosedNotices tokens := by
  obtain ⟨last, hrun, -⟩ := interpret_eq_ok.mp hdrawn
  have hdepth := Machine.length_branches_run hrun
  rw [depth_tokens, Machine.initial, List.length_nil] at hdepth
  rw [interpret, hrun]
  change last.notices = _
  cases hbranches : last.branches with
  | nil =>
      rw [hbranches, List.length_nil] at hdepth
      rw [Machine.notices, hbranches, unclosedNotices, if_pos List.isEmpty_nil,
        if_pos (by omega)]
  | cons state branches =>
      rw [hbranches, List.length_cons] at hdepth
      rw [Machine.notices, hbranches, unclosedNotices, if_neg (by simp), if_neg (by omega),
        List.length_cons]
      congr 2
      omega

/-- What it means that missing branches are reported where they are first missing, and that nothing
else stops a drawing. -/
structure ReportsUnderflow (setup : Setup μ) (tokens : List Token) : Prop where
  /-- A drawing is stopped exactly if some beginning of its tokens closes too much. -/
  stopped : (∃ index, (interpret setup tokens).outcome = .error (.branchUnderflow index)) ↔
    ∃ before, before <+: tokens ∧ Overclosed before
  /-- It is stopped at the first such place, which does not depend on the setup. -/
  first : ∀ index, (interpret setup tokens).outcome = .error (.branchUnderflow index) ↔
    FirstUnderflow tokens index
  /-- The symbol that is reported is that of the token there. -/
  symbol : ∀ index, (interpret setup tokens).outcome = .error (.branchUnderflow index) →
    ∃ token, tokens[index]? = some token ∧ token.symbol = Text.ofString "]" ∧
      (Fault.branchUnderflow index).symbol? = some token.symbol
  /-- Otherwise all steps forward are drawn, and it is told how many branches are left open. -/
  drawn : (∀ before, before <+: tokens → ¬ Overclosed before) →
    ∃ segments, interpret setup tokens = ⟨unclosedNotices tokens, .ok segments⟩ ∧
      segments.length = (tokens.map Token.symbol).count (Text.ofString "F")

/-- Drawings whose turns have finite angles report missing branches, and only these. -/
theorem interpret_reports_underflow (hangle : setup.angle.isInf = false)
    (hturns : ∀ token ∈ tokens, ∀ axis backward, token.command = .turn axis backward →
      ∀ degrees, token.parameter = some degrees → degrees.isInf = false) :
    ReportsUnderflow setup tokens := by
  have hobey : ∀ token ∈ tokens, setup.CanObey token := fun token htoken =>
    Setup.canObey_of_finite hangle (hturns token htoken)
  have hfirst : ∀ index, (interpret setup tokens).outcome = .error (.branchUnderflow index) ↔
      FirstUnderflow tokens index := by
    intro index
    rw [interpret_underflow_iff hobey]
    simp
  refine ⟨?_, hfirst, fun index hindex => ?_, fun hclosed => ?_⟩
  · rw [← exists_firstUnderflow_iff]
    exact exists_congr hfirst
  · rw [outcome_interpret, Except.map_eq_error] at hindex
    obtain ⟨token, htoken, hsymbol⟩ := (Machine.firstUnderflow_of_run hindex).2
    exact ⟨token, htoken, hsymbol, congrArg some hsymbol.symm⟩
  · obtain ⟨segments, hsegments⟩ := exists_interpret hobey (nested_iff_not_overclosed.mpr hclosed)
    refine ⟨segments, ?_, ?_⟩
    · rw [← notices_interpret hsegments, ← hsegments]
    · rw [length_interpret hsegments, forwardCount_eq_count]

/-- A turn, a branch, a closing too many, and a branch that is left open. -/
def looseBrackets : List Token :=
  [⟨"+", some 90⟩, ⟨"[", none⟩, ⟨"F", none⟩, ⟨"]", none⟩, ⟨"]", none⟩, ⟨"[", none⟩]

theorem looseBrackets_reported :
    (interpret (Setup.standard ()) looseBrackets).outcome = .error (.branchUnderflow 4) ∧
      ReportsUnderflow (Setup.standard ()) looseBrackets := by
  have hfinite : ∀ token ∈ looseBrackets, ∀ degrees ∈ token.parameter, degrees.isInf = false := by
    decide
  refine ⟨by decide, interpret_reports_underflow (by decide) ?_⟩
  intro token htoken axis backward _ degrees hdegrees
  exact hfinite token htoken degrees hdegrees

end Lindenmayer
