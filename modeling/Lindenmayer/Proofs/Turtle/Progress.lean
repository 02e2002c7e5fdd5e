import Lindenmayer.Proofs.Number.Parts
import Lindenmayer.Proofs.Outcome
import Lindenmayer.Proofs.Turtle.Run

/-!
# Runs that come to their end

A run of the drawing machine can only be stopped by a branch that is closed without being open, or
by a turn through an infinite angle. Nested tokens that turn by other angles are drawn to their end,
in materials of the setup.
-/

namespace Lindenmayer

variable {μ : Type}

/-- If a token turns the turtle, its angle has a cosine and a sine. -/
def Setup.CanObey (setup : Setup μ) (token : Token) : Prop :=
  ∀ axis backward, token.command = .turn axis backward →
    Float.isInf (if backward then -(token.parameter.getD setup.angle)
      else token.parameter.getD setup.angle) = false

/-- A token can be obeyed unless the angle that it turns by is infinite. -/
theorem Setup.canObey_of_finite {setup : Setup μ} {token : Token}
    (hangle : setup.angle.isInf = false)
    (hparameter : ∀ axis backward, token.command = .turn axis backward →
      ∀ degrees, token.parameter = some degrees → degrees.isInf = false) :
    setup.CanObey token := by
  intro axis backward hturn
  have hdegrees : (token.parameter.getD setup.angle).isInf = false := by
    cases hgiven : token.parameter with
    | none => exact hangle
    | some degrees => exact hparameter axis backward hturn degrees hgiven
  cases backward with
  | false => exact hdegrees
  | true => exact (FloatParts.isInf_neg _).trans hdegrees

namespace State

variable {setup : Setup μ} {state next : State μ} {token : Token}

theorem rotate_eq_ok {vector : Vec3} {degrees : Float} (axis : Axis)
    (hfinite : degrees.isInf = false) : ∃ rotated, vector.rotate axis degrees = .ok rotated := by
  rw [Vec3.rotate, rotation, cosineSine, hfinite]
  exact ⟨_, rfl⟩

/-- The turtle obeys every command but a turn through an infinite angle. -/
theorem exists_obey (state : State μ) (hobey : setup.CanObey token) :
    ∃ next, state.obey setup token.command token.parameter = .ok next := by
  cases hcommand : token.command with
  | turn axis backward =>
      obtain ⟨rotated, hrotated⟩ :=
        @rotate_eq_ok state.heading _ axis (hobey axis backward hcommand)
      rw [obey, hrotated]
      exact ⟨_, rfl⟩
  | _ => exact ⟨_, rfl⟩

theorem chosen?_mem {parameter : Option Float} {material : μ}
    (hchosen : chosen? setup parameter = some material) : material ∈ setup.materials := by
  simp only [chosen?, Option.bind_eq_bind, Option.bind_eq_some_iff] at hchosen
  obtain ⟨number, -, slot, -, hslot⟩ := hchosen
  split at hslot
  next => exact nomatch hslot
  next => exact List.mem_of_getElem? hslot

/-- The turtle keeps its material or takes one of the setup. -/
theorem material_obey {command : Command} {parameter : Option Float}
    (hobey : state.obey setup command parameter = .ok next) :
    next.material = state.material ∨ next.material ∈ setup.materials := by
  cases command with
  | turn axis backward =>
      obtain ⟨heading, -, rfl⟩ := Except.map_eq_ok.mp hobey
      exact .inl rfl
  | choose =>
      obtain rfl := Except.ok.inj hobey
      cases hchosen : chosen? setup parameter with
      | none => exact .inl rfl
      | some material => exact .inr (chosen?_mem hchosen)
  | _ =>
      obtain rfl := Except.ok.inj hobey
      exact .inl rfl

end State

namespace Machine

variable {setup : Setup μ} {machine next last : Machine μ} {token : Token} {tokens : List Token}

/-- A token is read if it closes no branch without one being open. -/
theorem exists_step (hobey : setup.CanObey token)
    (hnested : Command.NestedFrom machine.branches.length [token.command]) :
    ∃ next, machine.step setup token = .ok next := by
  by_cases hplain : token.command.IsBracket
  · rcases hplain with hopen | hclose
    · exact ⟨_, step_open setup machine hopen⟩
    · have hdepth := hnested [token.command] List.prefix_rfl
      simp only [hclose, Command.depth_cons, Command.weight_closeBranch, Command.depth_nil]
        at hdepth
      rw [step, hclose]
      cases hbranches : machine.branches with
      | nil =>
          rw [hbranches, List.length_nil] at hdepth
          omega
      | cons state branches => exact ⟨_, rfl⟩
  · obtain ⟨state, hstate⟩ := State.exists_obey machine.state hobey
    rw [step_plain setup machine hplain, hstate]
    exact ⟨_, rfl⟩

/-- Tokens that are nested in the open branches are read to their end. -/
theorem exists_run (hobey : ∀ token ∈ tokens, setup.CanObey token)
    (hnested : Command.NestedFrom machine.branches.length (tokens.map Token.command)) :
    ∃ last, machine.run setup tokens = .ok last := by
  induction tokens generalizing machine with
  | nil => exact ⟨machine, rfl⟩
  | cons token tokens ih =>
      have hsplit : Command.NestedFrom machine.branches.length
          ([token.command] ++ tokens.map Token.command) := hnested
      obtain ⟨hfirst, hrest⟩ := Command.nestedFrom_append.mp hsplit
      obtain ⟨next, hstep⟩ := exists_step (hobey token List.mem_cons_self) hfirst
      simp only [Command.depth_cons, Command.depth_nil, Int.add_zero] at hrest
      rw [← length_branches_step hstep] at hrest
      obtain ⟨last, hlast⟩ := ih (fun token htoken => hobey token (.tail _ htoken)) hrest
      exact ⟨last, run_cons_eq_ok.mpr ⟨next, hstep, hlast⟩⟩

/-- Everything about the machine is of one of the given materials. -/
structure IsMadeOf (machine : Machine μ) (materials : List μ) : Prop where
  state : machine.state.material ∈ materials
  branches : ∀ state ∈ machine.branches, state.material ∈ materials
  drawn : ∀ segment ∈ machine.drawn, segment.material ∈ materials

variable {materials : List μ}

theorem IsMadeOf.step (hmade : machine.IsMadeOf materials)
    (hsubset : setup.materials ⊆ materials) (hstep : machine.step setup token = .ok next) :
    next.IsMadeOf materials := by
  obtain ⟨hstate, hbranches, hdrawn⟩ := hmade
  rcases step_eq_ok hstep with ⟨-, rfl⟩ | ⟨-, state, branches, hopened, rfl⟩ |
    ⟨-, state, hobey, rfl⟩
  · exact ⟨hstate, List.forall_mem_cons.mpr ⟨hstate, hbranches⟩, hdrawn⟩
  · rw [hopened, List.forall_mem_cons] at hbranches
    exact ⟨hbranches.1, hbranches.2, hdrawn⟩
  · refine ⟨?_, hbranches, fun segment hsegment => ?_⟩
    · rcases State.material_obey hobey with hsame | hchosen
      · exact hsame ▸ hstate
      · exact hsubset hchosen
    · rcases List.mem_append.mp hsegment with hnew | hold
      · rw [State.drawing] at hnew
        split at hnew
        next =>
          obtain rfl := List.mem_singleton.mp hnew
          exact hstate
        next => exact absurd hnew List.not_mem_nil
      · exact hdrawn segment hold

theorem IsMadeOf.run (hmade : machine.IsMadeOf materials) (hsubset : setup.materials ⊆ materials)
    (hrun : machine.run setup tokens = .ok last) : last.IsMadeOf materials := by
  induction tokens generalizing machine with
  | nil =>
      obtain rfl := Except.ok.inj hrun
      exact hmade
  | cons token tokens ih =>
      obtain ⟨next, hstep, hrest⟩ := run_cons_eq_ok.mp hrun
      exact ih (hmade.step hsubset hstep) hrest

end Machine

/-- A drawing has one segment for each step forward. -/
theorem length_interpret {setup : Setup μ} {tokens : List Token} {segments : List (Segment μ)}
    (hdrawn : (interpret setup tokens).outcome = .ok segments) :
    segments.length = forwardCount tokens := by
  obtain ⟨last, hrun, rfl⟩ := interpret_eq_ok.mp hdrawn
  obtain ⟨own, hown, hlength, -⟩ := Machine.run_relocate hrun
  rw [Machine.segments, List.length_reverse, hown, Machine.initial, List.append_nil, hlength]

theorem ne_nil_interpret {setup : Setup μ} {tokens : List Token} {segments : List (Segment μ)}
    (hdrawn : (interpret setup tokens).outcome = .ok segments) :
    segments ≠ [] ↔ Command.forward ∈ tokens.map Token.command := by
  rw [← List.length_pos_iff, length_interpret hdrawn, forwardCount, List.countP_pos_iff,
    List.mem_map]
  simp only [decide_eq_true_eq]

/-- Nested tokens are drawn to their end. -/
theorem exists_interpret {setup : Setup μ} {tokens : List Token}
    (hobey : ∀ token ∈ tokens, setup.CanObey token)
    (hnested : Command.Nested (tokens.map Token.command)) :
    ∃ segments, (interpret setup tokens).outcome = .ok segments := by
  obtain ⟨last, hrun⟩ := @Machine.exists_run _ _ (Machine.initial setup) _ hobey
    (Command.nested_iff_nestedFrom.mp hnested)
  exact ⟨last.segments, interpret_eq_ok.mpr ⟨last, hrun, rfl⟩⟩

theorem exists_interpret_iff {setup : Setup μ} {tokens : List Token}
    (hobey : ∀ token ∈ tokens, setup.CanObey token) :
    (∃ segments, (interpret setup tokens).outcome = .ok segments) ↔
      Command.Nested (tokens.map Token.command) := by
  refine ⟨fun ⟨segments, hsegments⟩ => ?_, exists_interpret hobey⟩
  obtain ⟨last, hrun, -⟩ := interpret_eq_ok.mp hsegments
  exact Machine.nested_of_run hrun

/-- Segments are of the materials of the setup. -/
theorem material_interpret {setup : Setup μ} {tokens : List Token} {segments : List (Segment μ)}
    (hdrawn : (interpret setup tokens).outcome = .ok segments) :
    ∀ segment ∈ segments, segment.material ∈ setup.defaultMaterial :: setup.materials := by
  obtain ⟨last, hrun, rfl⟩ := interpret_eq_ok.mp hdrawn
  have hinitial : (Machine.initial setup).IsMadeOf (setup.defaultMaterial :: setup.materials) :=
    ⟨List.mem_cons_self, nofun, nofun⟩
  intro segment hsegment
  exact (hinitial.run (List.subset_cons_self _ _) hrun).drawn segment
    (List.mem_reverse.mp hsegment)

end Lindenmayer
