import Lindenmayer.Proofs.Branch.Drawing
import Lindenmayer.Proofs.Number.Conversion
import Lindenmayer.Proofs.Turtle.Progress

/-!
# Materials along paths

A segment has the material of the last choice on its path, that is, of the last token before it that
chooses a material of the setup and is not in a closed branch. Tokens that ask for a material which
the setup does not have change nothing.
-/

namespace Lindenmayer

open Command

variable {μ : Type}

/-- A token that chooses a material, the one with the number that its parameter rounds down to. -/
def Token.Picks (setup : Setup μ) (token : Token) (material : μ) : Prop :=
  token.command = .choose ∧ ∃ parameter value, token.parameter = some parameter ∧
    (FloatParts.ofFloat parameter).number? = some value ∧ 0 ≤ ⌊value⌋ ∧
      setup.materials[⌊value⌋.toNat]? = some material

/-- A place, outside the closed branches of some tokens, at which a material is chosen. -/
def PickedAt (setup : Setup μ) (tokens : List Token) (place : Nat) (material : μ) : Prop :=
  ¬Enclosed (tokens.map Token.command) place ∧
    ∃ token, tokens[place]? = some token ∧ token.Picks setup material

/-- The material at the end of the path of some tokens: the one that is chosen last, or else the one
of the setup. -/
inductive HasMaterial (setup : Setup μ) (tokens : List Token) : μ → Prop
  | picked {place : Nat} {material : μ} (hpick : PickedAt setup tokens place material)
      (hlast : ∀ later > place, ∀ other, ¬PickedAt setup tokens later other) :
      HasMaterial setup tokens material
  | default (hnone : ∀ place other, ¬PickedAt setup tokens place other) :
      HasMaterial setup tokens setup.defaultMaterial

section Choices

variable {setup : Setup μ} {token : Token} {tokens more : List Token} {material : μ}

theorem State.chosen?_eq_some_iff {parameter : Option Float} :
    chosen? setup parameter = some material ↔
      ∃ number value, parameter = some number ∧
        (FloatParts.ofFloat number).number? = some value ∧ 0 ≤ ⌊value⌋ ∧
          setup.materials[⌊value⌋.toNat]? = some material := by
  simp only [chosen?, Option.bind_eq_bind, Option.bind_eq_some_iff, floorFloat?_eq,
    Option.map_eq_some_iff, Option.ite_none_left_eq_some, not_lt]
  constructor
  · rintro ⟨number, hnumber, _, ⟨value, hvalue, rfl⟩, hslot, hmaterial⟩
    exact ⟨number, value, hnumber, hvalue, hslot, hmaterial⟩
  · rintro ⟨number, value, hnumber, hvalue, hslot, hmaterial⟩
    exact ⟨number, hnumber, _, ⟨value, hvalue, rfl⟩, hslot, hmaterial⟩

theorem Token.picks_iff : token.Picks setup material ↔
    token.command = .choose ∧ State.chosen? setup token.parameter = some material := by
  rw [Picks, State.chosen?_eq_some_iff]

/-- A command either chooses a material, or there is none that it could choose and the turtle keeps
its own. -/
theorem State.material_of_obey {state next : State μ}
    (hobey : state.obey setup token.command token.parameter = .ok next) :
    token.Picks setup next.material ∨
      (∀ other, ¬token.Picks setup other) ∧ next.material = state.material := by
  simp only [Token.picks_iff]
  cases hcommand : token.command with
  | turn axis backward =>
      rw [hcommand] at hobey
      obtain ⟨heading, -, rfl⟩ := Except.map_eq_ok.mp hobey
      exact .inr ⟨fun _ => nofun, rfl⟩
  | choose =>
      rw [hcommand] at hobey
      obtain rfl := Except.ok.inj hobey
      cases hchosen : chosen? setup token.parameter with
      | none => exact .inr ⟨fun _ => nofun, rfl⟩
      | some material => exact .inl ⟨rfl, rfl⟩
  | _ =>
      rw [hcommand] at hobey
      obtain rfl := Except.ok.inj hobey
      exact .inr ⟨fun _ => nofun, rfl⟩

/-- Nothing that comes after some tokens and closes none of their branches changes what is chosen
among them. -/
theorem pickedAt_append {place : Nat} (hmore : Nested (more.map Token.command))
    (hplace : place < tokens.length) :
    PickedAt setup (tokens ++ more) place material ↔ PickedAt setup tokens place material := by
  rw [PickedAt, PickedAt, List.getElem?_append_left hplace, List.map_append,
    enclosed_append hmore (by rwa [List.length_map])]

theorem PickedAt.lt_length {place : Nat} (hpick : PickedAt setup tokens place material) :
    place < tokens.length := by
  obtain ⟨-, token, htoken, -⟩ := hpick
  exact (List.getElem?_eq_some_iff.mp htoken).1

theorem PickedAt.unique {place : Nat} {other : μ} (hpick : PickedAt setup tokens place material)
    (hother : PickedAt setup tokens place other) : material = other := by
  obtain ⟨-, token, htoken, hpicks⟩ := hpick
  obtain ⟨-, same, hsame, hagain⟩ := hother
  obtain rfl := Option.some.inj (htoken.symm.trans hsame)
  exact Option.some.inj ((Token.picks_iff.mp hpicks).2.symm.trans (Token.picks_iff.mp hagain).2)

/-- There is one material at the end of a path. -/
theorem HasMaterial.unique {other : μ} (hmaterial : HasMaterial setup tokens material)
    (hother : HasMaterial setup tokens other) : material = other := by
  cases hmaterial with
  | @picked place _ hpick hlast =>
      cases hother with
      | @picked again _ hagain hlater =>
          rcases lt_trichotomy place again with hlt | rfl | hgt
          · exact absurd hagain (hlast again hlt _)
          · exact hpick.unique hagain
          · exact absurd hpick (hlater place hgt _)
      | default hnone => exact absurd hpick (hnone place _)
  | default hnone =>
      cases hother with
      | @picked again _ hagain hlater => exact absurd hagain (hnone again _)
      | default => rfl

/-- Tokens that choose nothing outside their branches leave the material as it is. -/
theorem HasMaterial.append (hmaterial : HasMaterial setup tokens material)
    (hmore : Nested (more.map Token.command))
    (hidle : ∀ place other, PickedAt setup (tokens ++ more) place other → place < tokens.length) :
    HasMaterial setup (tokens ++ more) material := by
  have hback : ∀ place other, PickedAt setup (tokens ++ more) place other →
      PickedAt setup tokens place other :=
    fun place other hpick => (pickedAt_append hmore (hidle place other hpick)).mp hpick
  cases hmaterial with
  | picked hpick hlast =>
      have hkept := (pickedAt_append hmore hpick.lt_length).mpr hpick
      exact .picked hkept fun later hlater other hlate =>
        hlast later hlater other (hback later other hlate)
  | default hnone => exact .default fun place other hpick => hnone place other (hback _ _ hpick)

theorem HasMaterial.concat_picks (tokens : List Token) (hpicks : token.Picks setup material) :
    HasMaterial setup (tokens ++ [token]) material := by
  have hlength : (tokens ++ [token]).length = tokens.length + 1 := List.length_append
  refine .picked ⟨?_, token, List.getElem?_concat_length, hpicks⟩ fun later hlater other hlate => ?_
  · exact not_enclosed_last (by rw [List.length_map, hlength])
  · have hbound := hlate.lt_length
    omega

/-- One token that chooses nothing leaves the material as it is. -/
theorem HasMaterial.concat_idle (hmaterial : HasMaterial setup tokens material)
    (hnested : Nested ([token].map Token.command)) (hidle : ∀ other, ¬token.Picks setup other) :
    HasMaterial setup (tokens ++ [token]) material := by
  refine hmaterial.append hnested fun place other hpick => ?_
  have hbound := hpick.lt_length
  obtain ⟨-, picking, hpicking, hpicks⟩ := hpick
  by_contra hlate
  obtain rfl : place = tokens.length := by
    rw [List.length_append, List.length_singleton] at hbound
    omega
  rw [List.getElem?_concat_length, Option.some.injEq] at hpicking
  exact hidle other (hpicking ▸ hpicks)

theorem Token.Picks.not_isBracket (hpicks : token.Picks setup material) :
    ¬token.command.IsBracket := by
  rw [Command.IsBracket, hpicks.1]
  decide

/-- Nothing that is chosen in a closed branch counts after it. -/
theorem HasMaterial.append_branch {opening closing : Token} {inner : List Token}
    (hmaterial : HasMaterial setup tokens material) (hopen : opening.command = .openBranch)
    (hclose : closing.command = .closeBranch) (hinner : Balanced (inner.map Token.command)) :
    HasMaterial setup (tokens ++ (opening :: inner ++ [closing])) material := by
  have hnested : Nested ((opening :: inner ++ [closing]).map Token.command) := by
    rw [commands_branch hopen hclose]
    exact hinner.branch.1
  refine hmaterial.append hnested fun place other hpick => ?_
  obtain ⟨hfree, token, htoken, hpicks⟩ := hpick
  by_contra hlate
  exact hfree (enclosed_of_branch hopen hclose hinner (not_lt.mp hlate) htoken
    hpicks.not_isBracket)

end Choices

section Paths

variable {setup : Setup μ} {tokens : List Token}

/-- A turtle that has followed a path has the material chosen last on it. -/
theorem hasMaterial_of_pathState (hnested : Nested (tokens.map Token.command)) {state : State μ}
    (hstate : pathState setup tokens = .ok state) : HasMaterial setup tokens state.material := by
  refine nested_induction (motive := fun tokens => ∀ state,
    pathState setup tokens = .ok state → HasMaterial setup tokens state.material)
    ?nil ?plain ?opened ?branch tokens hnested state hstate
  case nil =>
    intro state hstate
    obtain rfl := Except.ok.inj hstate
    exact .default fun place other hpick => absurd hpick.lt_length (Nat.not_lt_zero place)
  case plain =>
    intro tokens token hplain ih state hstate
    rw [pathState_concat_plain setup tokens hplain] at hstate
    obtain ⟨before, hbefore, hobey⟩ := Except.bind_eq_ok.mp hstate
    rcases State.material_of_obey hobey with hpicks | ⟨hidle, hsame⟩
    · exact .concat_picks tokens hpicks
    · rw [hsame]
      exact (ih before hbefore).concat_idle (balanced_singleton hplain).1 hidle
  case opened =>
    intro tokens token hopen ih state hstate
    rw [pathState, path_concat_open tokens hopen, ← pathState] at hstate
    have hnested : Nested ([token].map Token.command) := by
      rw [List.map_singleton, hopen]
      decide
    exact (ih state hstate).concat_idle hnested fun other hpicks =>
      hpicks.not_isBracket (Or.inl hopen)
  case branch =>
    intro tokens opening inner closing hopen hclose hinner ih state hstate
    rw [pathState, path_append_branch tokens hopen hclose hinner, ← pathState] at hstate
    exact (ih state hstate).append_branch hopen hclose hinner

/-- A token for which there is no material can be deleted. -/
theorem interpret_delete_idle {before after : List Token} {token : Token}
    {segments : List (Segment μ)} (hchoose : token.command = .choose)
    (hidle : ∀ other, ¬token.Picks setup other)
    (hdrawn : (interpret setup (before ++ token :: after)).outcome = .ok segments) :
    (interpret setup (before ++ after)).outcome = .ok segments := by
  obtain ⟨last, hrun, rfl⟩ := interpret_eq_ok.mp hdrawn
  obtain ⟨middle, hmiddle, hrest⟩ := Machine.run_append_eq_ok.mp hrun
  obtain ⟨next, hstep, hafter⟩ := Machine.run_cons_eq_ok.mp hrest
  have hnone : State.chosen? setup token.parameter = none := by
    rw [Option.eq_none_iff_forall_ne_some]
    exact fun other hchosen => hidle other (Token.picks_iff.mpr ⟨hchoose, hchosen⟩)
  have hnext : next = { middle with index := middle.index + 1 } := by
    rw [Machine.step, hchoose] at hstep
    simp only [State.obey, hnone, Option.getD_none, Except.map, Except.ok.injEq] at hstep
    exact hstep.symm
  obtain ⟨own, hown, -, hmoved⟩ := Machine.run_relocate hafter
  rw [hnext] at hown hmoved
  have hdeleted : (Machine.initial setup).run setup (before ++ after) =
      .ok ⟨last.state, last.branches, own ++ middle.drawn, middle.index + after.length⟩ :=
    Machine.run_append_eq_ok.mpr ⟨middle, hmiddle, hmoved middle.drawn middle.index⟩
  refine interpret_eq_ok.mpr ⟨_, hdeleted, ?_⟩
  rw [Machine.segments, Machine.segments, hown]

end Paths

/-- What it means that segments have the materials that are chosen for them. -/
structure FollowsChoices (setup : Setup μ) (tokens : List Token)
    (segments : List (Segment μ)) : Prop where
  /-- There is one segment for each step forward, with the material at the end of its path. -/
  drawn : List.Forall₂ (fun segment entry =>
    HasMaterial setup (tokens.take entry.2) segment.material) segments (forwards tokens)
  /-- A token that asks for a material without a parameter, with one that is no finite number, or
  with one that rounds down to a number out of range changes no segment. -/
  idle : ∀ before token after, tokens = before ++ token :: after → token.command = .choose →
    (∀ parameter value, token.parameter = some parameter →
      (FloatParts.ofFloat parameter).number? = some value →
        ⌊value⌋ < 0 ∨ (setup.materials.length : ℤ) ≤ ⌊value⌋) →
    (interpret setup (before ++ after)).outcome = .ok segments

/-- Every segment has the material that is chosen last on its path. -/
theorem interpret_followsChoices {setup : Setup μ} {tokens : List Token}
    {segments : List (Segment μ)} (hdrawn : (interpret setup tokens).outcome = .ok segments) :
    FollowsChoices setup tokens segments := by
  refine ⟨?_, ?_⟩
  · obtain ⟨last, hrun, rfl⟩ := interpret_eq_ok.mp hdrawn
    have hsegments := segments_of_run hrun
    rw [← List.forall₂_eq_eq_eq, List.forall₂_map_left_iff, List.forall₂_map_right_iff] at hsegments
    refine hsegments.imp fun segment entry hsegment => ?_
    obtain ⟨state, hstate, rfl⟩ := Except.map_eq_ok.mp hsegment.symm
    apply hasMaterial_of_pathState ?_ hstate
    rw [List.map_take]
    exact (Machine.nested_of_run hrun).beginning (List.take_prefix _ _)
  · rintro before token after rfl hchoose hrange
    refine interpret_delete_idle hchoose ?_ hdrawn
    rintro other ⟨-, parameter, value, hparameter, hvalue, hslot, hmaterial⟩
    have hlength := (List.getElem?_eq_some_iff.mp hmaterial).1
    rcases hrange parameter value hparameter hvalue with hlow | hhigh <;> omega

/-- Choices on the way and in a branch, and three that choose nothing. -/
def pickedSteps : List Token :=
  [⟨"F", none⟩, ⟨"M", some 1.5⟩, ⟨"[", none⟩, ⟨"M", some 0⟩, ⟨"F", none⟩, ⟨"]", none⟩,
    ⟨"M", some (-0.5)⟩, ⟨"M", some 2⟩, ⟨"M", some (0 / 0)⟩, ⟨"F", none⟩]

/-- A setup with two materials to choose from and a third one to begin with. -/
def twoMaterials : Setup Nat :=
  { Setup.standard 7 with materials := [8, 9] }

theorem pickedSteps_followsChoices :
    (interpret twoMaterials pickedSteps).outcome = .ok
      [⟨⟨0, 0, 0⟩, ⟨0, 1, 0⟩, 0.1, 7⟩, ⟨⟨0, 1, 0⟩, ⟨0, 2, 0⟩, 0.1, 8⟩,
        ⟨⟨0, 1, 0⟩, ⟨0, 2, 0⟩, 0.1, 9⟩] ∧
    FollowsChoices twoMaterials pickedSteps
      [⟨⟨0, 0, 0⟩, ⟨0, 1, 0⟩, 0.1, 7⟩, ⟨⟨0, 1, 0⟩, ⟨0, 2, 0⟩, 0.1, 8⟩,
        ⟨⟨0, 1, 0⟩, ⟨0, 2, 0⟩, 0.1, 9⟩] :=
  ⟨by decide +kernel, interpret_followsChoices (by decide +kernel)⟩

end Lindenmayer
