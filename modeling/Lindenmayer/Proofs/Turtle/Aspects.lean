import Lindenmayer.Proofs.Turtle.Stopped

/-!
# Aspects of drawings

The course of a drawing, its widths and its materials have nothing to do with each other: each of
these aspects depends on settings and on symbols of its own. Two runs with the same settings for an
aspect that are given the same tokens for it stay alike in it, whatever else they do.
-/

namespace Lindenmayer

variable {μ α β : Type}

/-- Whether the symbol of a token is one of the given ones. -/
def Token.IsAmong (symbols : Text) (token : Token) : Prop :=
  ∃ symbol ∈ symbols, token.symbol = [symbol]

instance (symbols : Text) (token : Token) : Decidable (token.IsAmong symbols) :=
  inferInstanceAs (Decidable (∃ symbol ∈ symbols, _))

theorem Token.isAmong_of_command {symbols : Text} {token : Token} {char : Char}
    (hchar : token.command.char? = some char) (hmem : CodePoint.ofChar char ∈ symbols) :
    token.IsAmong symbols :=
  ⟨_, hmem, (Token.command_eq_iff hchar).mp rfl⟩

/-- What is looked at of a turtle, and what of a segment. -/
structure Aspect (μ α β : Type) where
  ofState : State μ → α
  ofSegment : Segment μ → β

namespace Aspect

/-- What is looked at of a machine: its turtle, the turtles to come back to, and what was drawn. -/
def ofMachine (aspect : Aspect μ α β) (machine : Machine μ) : α × List α × List β :=
  (aspect.ofState machine.state, machine.branches.map aspect.ofState,
    machine.drawn.map aspect.ofSegment)

/-- Two setups do the same to an aspect. -/
structure Alike (aspect : Aspect μ α β) (first second : Setup μ) : Prop where
  initial : aspect.ofState (State.initial first) = aspect.ofState (State.initial second)
  segment : ∀ (state other : State μ) (parameter : Option Float),
    aspect.ofState state = aspect.ofState other →
      aspect.ofSegment (state.segment parameter) = aspect.ofSegment (other.segment parameter)
  obey : ∀ (state other : State μ) (command : Command) (parameter : Option Float)
    (next changed : State μ), aspect.ofState state = aspect.ofState other →
      state.obey first command parameter = .ok next →
      other.obey second command parameter = .ok changed →
      aspect.ofState next = aspect.ofState changed

/-- A command draws nothing, leaves all branches alone and changes nothing that is looked at. -/
structure Idle (aspect : Aspect μ α β) (setup : Setup μ) (command : Command) : Prop where
  plain : ¬ command.IsBracket
  still : command ≠ .forward
  obey : ∀ (state next : State μ) (parameter : Option Float),
    state.obey setup command parameter = .ok next → aspect.ofState next = aspect.ofState state

variable {aspect : Aspect μ α β} {first second : Setup μ} {machine other next last : Machine μ}
  {token : Token} {tokens : List Token}

theorem step_alike (halike : aspect.Alike first second)
    (hsame : aspect.ofMachine machine = aspect.ofMachine other)
    (hstep : machine.step first token = .ok next) (hobey : second.CanObey token) :
    ∃ changed, other.step second token = .ok changed ∧
      aspect.ofMachine next = aspect.ofMachine changed := by
  simp only [ofMachine, Prod.mk.injEq] at hsame
  obtain ⟨hstate, hbranches, hdrawn⟩ := hsame
  rcases Machine.step_eq_ok hstep with ⟨hopen, rfl⟩ | ⟨hclose, state, branches, hopened, rfl⟩ |
    ⟨hplain, state, hnext, rfl⟩
  · refine ⟨_, Machine.step_open second other hopen, ?_⟩
    simp only [ofMachine, List.map_cons, hstate, hbranches, hdrawn]
  · -- The other machine has as many open branches, so one of them can be closed.
    rw [hopened, List.map_cons] at hbranches
    obtain ⟨kept, rest, hothers, hkept, hrest⟩ := List.map_eq_cons_iff.mp hbranches.symm
    refine ⟨⟨kept, rest, other.drawn, other.index + 1⟩, ?_, ?_⟩
    · rw [Machine.step, hclose, hothers]
    · simp only [ofMachine, hkept, hrest, hdrawn]
  · obtain ⟨changed, hchanged⟩ := State.exists_obey other.state hobey
    have hnew := halike.obey _ _ _ _ _ _ hstate hnext hchanged
    have hsegment := halike.segment _ _ token.parameter hstate
    refine ⟨⟨changed, other.branches, other.state.drawing token ++ other.drawn, other.index + 1⟩,
      ?_, ?_⟩
    · rw [Machine.step_plain second other hplain, hchanged]
      rfl
    · simp only [ofMachine, State.drawing, List.map_append, hnew, hbranches, hdrawn]
      split
      · simp only [List.map_cons, List.map_nil, hsegment]
      · rfl

theorem step_idle (hidle : aspect.Idle first token.command)
    (hstep : machine.step first token = .ok next) :
    aspect.ofMachine next = aspect.ofMachine machine := by
  rw [Machine.step_plain first machine hidle.plain] at hstep
  obtain ⟨state, hobey, rfl⟩ := Except.map_eq_ok.mp hstep
  simp only [ofMachine, State.drawing, if_neg hidle.still, List.nil_append,
    hidle.obey _ _ _ hobey]

/-- A run without idle tokens goes the same way in the aspect. -/
theorem run_filter (halike : aspect.Alike first second) {keep : Token → Bool}
    (hidle : ∀ token ∈ tokens, keep token = false → aspect.Idle first token.command)
    (hobey : ∀ token ∈ tokens, second.CanObey token)
    (hsame : aspect.ofMachine machine = aspect.ofMachine other)
    (hrun : machine.run first tokens = .ok last) :
    ∃ changed, other.run second (tokens.filter keep) = .ok changed ∧
      aspect.ofMachine last = aspect.ofMachine changed := by
  induction tokens generalizing machine other with
  | nil =>
      obtain rfl := Except.ok.inj hrun
      exact ⟨other, rfl, hsame⟩
  | cons token tokens ih =>
      obtain ⟨next, hstep, hrest⟩ := Machine.run_cons_eq_ok.mp hrun
      obtain ⟨htoken, htokens⟩ := List.forall_mem_cons.mp hobey
      obtain ⟨hfirst, hlater⟩ := List.forall_mem_cons.mp hidle
      cases hkeep : keep token with
      | true =>
          obtain ⟨middle, hmiddle, hview⟩ := step_alike halike hsame hstep htoken
          obtain ⟨changed, hchanged, hend⟩ := ih hlater htokens hview hrest
          rw [List.filter_cons_of_pos hkeep]
          exact ⟨changed, Machine.run_cons_eq_ok.mpr ⟨middle, hmiddle, hchanged⟩, hend⟩
      | false =>
          have hview := (step_idle (hfirst hkeep) hstep).trans hsame
          rw [List.filter_cons_of_neg (by simp [hkeep])]
          exact ih hlater htokens hview hrest

/-- What is drawn without idle tokens, with a setup that does the same to the aspect, is the same in
the aspect. -/
theorem interpret_filter (keep : Token → Bool) (halike : aspect.Alike first second)
    (hidle : ∀ token ∈ tokens, keep token = false → aspect.Idle first token.command)
    (hobey : ∀ token ∈ tokens, second.CanObey token) {segments : List (Segment μ)}
    (hdrawn : (interpret first tokens).outcome = .ok segments) :
    ∃ kept, (interpret second (tokens.filter keep)).outcome = .ok kept ∧
      kept.map aspect.ofSegment = segments.map aspect.ofSegment := by
  obtain ⟨last, hrun, rfl⟩ := interpret_eq_ok.mp hdrawn
  have hinitial : aspect.ofMachine (Machine.initial first) =
      aspect.ofMachine (Machine.initial second) := by
    simp only [ofMachine, Machine.initial, halike.initial, List.map_nil]
  obtain ⟨changed, hchanged, hview⟩ := run_filter halike hidle hobey hinitial hrun
  refine ⟨changed.segments, interpret_eq_ok.mpr ⟨changed, hchanged, rfl⟩, ?_⟩
  have hlists := congrArg (fun view => view.2.2.reverse) hview
  simp only [ofMachine, ← List.map_reverse] at hlists
  exact hlists.symm

end Aspect

theorem isInf_of_cosineSine {degrees : Float} {both : Float × Float}
    (hangle : cosineSine degrees = .ok both) : degrees.isInf = false := by
  rw [cosineSine] at hangle
  cases hinfinite : degrees.isInf with
  | false => rfl
  | true =>
      rw [hinfinite] at hangle
      cases hangle

/-- What was obeyed can be obeyed by every turtle. -/
theorem State.canObey_of_obey {setup : Setup μ} {state next : State μ} {token : Token}
    (hobey : state.obey setup token.command token.parameter = .ok next) : setup.CanObey token := by
  intro axis backward hturn
  rw [hturn, obey] at hobey
  obtain ⟨heading, hrotate, -⟩ := Except.map_eq_ok.mp hobey
  rw [Vec3.rotate] at hrotate
  obtain ⟨matrix, hmatrix, -⟩ := Except.map_eq_ok.mp hrotate
  rw [rotation] at hmatrix
  obtain ⟨both, hboth, -⟩ := Except.map_eq_ok.mp hmatrix
  exact isInf_of_cosineSine hboth

namespace Machine

variable {setup : Setup μ} {machine next last : Machine μ} {token : Token} {tokens : List Token}

theorem canObey_of_step (hstep : machine.step setup token = .ok next) : setup.CanObey token := by
  intro axis backward hturn
  rcases step_eq_ok hstep with ⟨hopen, -⟩ | ⟨hclose, -⟩ | ⟨-, state, hobey, -⟩
  · exact nomatch hturn.symm.trans hopen
  · exact nomatch hturn.symm.trans hclose
  · exact State.canObey_of_obey hobey axis backward hturn

/-- The tokens of a run that comes to its end can all be obeyed. -/
theorem canObey_of_run (hrun : machine.run setup tokens = .ok last) :
    ∀ token ∈ tokens, setup.CanObey token := by
  induction tokens generalizing machine with
  | nil => exact nofun
  | cons token tokens ih =>
      obtain ⟨next, hstep, hrest⟩ := run_cons_eq_ok.mp hrun
      exact List.forall_mem_cons.mpr ⟨canObey_of_step hstep, ih hrest⟩

end Machine

namespace Aspect

variable {first second : Setup μ}

/-- The course: place, heading and step of the turtle, and the ends of segments. -/
def course : Aspect μ (Vec3 × Vec3 × Float) (List Vec3) :=
  ⟨fun state => (state.position, state.heading, state.length), Segment.ends⟩

/-- The width of the turtle and of segments. -/
def width : Aspect μ Float Float :=
  ⟨State.width, Segment.width⟩

/-- The material of the turtle and of segments. -/
def material : Aspect μ μ μ :=
  ⟨State.material, Segment.material⟩

/-- All of the turtle and of segments. -/
def whole : Aspect μ (State μ) (Segment μ) :=
  ⟨id, id⟩

theorem alike_course (hangle : first.angle = second.angle)
    (hheading : first.heading = second.heading)
    (hscale : first.lengthScale = second.lengthScale) (hlength : first.length = second.length) :
    course.Alike first second where
  initial := by simp only [course, State.initial, hheading, hlength]
  segment state other parameter hsame := by
    simp only [course, Prod.mk.injEq] at hsame
    obtain ⟨hposition, hdirection, hstep⟩ := hsame
    simp only [course, Segment.ends, State.segment, hposition, hdirection, hstep]
  obey state other command parameter next changed hsame hnext hchanged := by
    simp only [course, Prod.mk.injEq] at hsame ⊢
    obtain ⟨hposition, hdirection, hstep⟩ := hsame
    cases command with
    | turn axis backward =>
        rw [State.obey, hdirection, hangle] at hnext
        obtain ⟨rotated, hrotated, rfl⟩ := Except.map_eq_ok.mp hnext
        rw [State.obey, hrotated] at hchanged
        obtain rfl := Except.ok.inj hchanged
        exact ⟨hposition, rfl, hstep⟩
    | _ =>
        obtain rfl := Except.ok.inj hnext
        obtain rfl := Except.ok.inj hchanged
        simp only [State.segment, hposition, hdirection, hstep, hscale, and_self]

theorem alike_width (hwidth : first.width = second.width)
    (hscale : first.widthScale = second.widthScale) : width.Alike first second where
  initial := hwidth
  segment state other parameter hsame := hsame
  obey state other command parameter next changed hsame hnext hchanged := by
    change state.width = other.width at hsame
    cases command with
    | turn axis backward =>
        obtain ⟨rotated, -, rfl⟩ := Except.map_eq_ok.mp hnext
        obtain ⟨heading, -, rfl⟩ := Except.map_eq_ok.mp hchanged
        exact hsame
    | _ =>
        obtain rfl := Except.ok.inj hnext
        obtain rfl := Except.ok.inj hchanged
        simp only [width, hsame, hscale]

theorem alike_material (hmaterials : first.materials = second.materials)
    (hdefault : first.defaultMaterial = second.defaultMaterial) : material.Alike first second where
  initial := hdefault
  segment state other parameter hsame := hsame
  obey state other command parameter next changed hsame hnext hchanged := by
    change state.material = other.material at hsame
    cases command with
    | turn axis backward =>
        obtain ⟨rotated, -, rfl⟩ := Except.map_eq_ok.mp hnext
        obtain ⟨heading, -, rfl⟩ := Except.map_eq_ok.mp hchanged
        exact hsame
    | _ =>
        obtain rfl := Except.ok.inj hnext
        obtain rfl := Except.ok.inj hchanged
        simp only [material, State.chosen?, hsame, hmaterials]

theorem alike_whole (setup : Setup μ) : whole.Alike setup setup where
  initial := rfl
  segment := by
    rintro state other parameter rfl
    rfl
  obey := by
    rintro state other command parameter next changed rfl hnext hchanged
    exact Except.ok.inj (hnext.symm.trans hchanged)

/-- The symbols that draw, move, turn and change the step, and the brackets. -/
def courseSymbols : Text := "F+-&^/\\\"_[]"

/-- The symbols that draw and change the width, and the brackets. -/
def widthSymbols : Text := "F!?[]"

/-- The symbols that draw and choose a material, and the brackets. -/
def materialSymbols : Text := "FM[]"

/-- The symbols of all commands. -/
def commandSymbols : Text := "F+-&^/\\!?\"_M[]"

/-- No symbol of a command is among the given ones. -/
def Outside (symbols : Text) (command : Command) : Prop :=
  ∀ char, command.char? = some char → CodePoint.ofChar char ∉ symbols

theorem outside_of_not_isAmong {symbols : Text} {token : Token} (hother : ¬ token.IsAmong symbols) :
    Outside symbols token.command :=
  fun _ hchar hmem => hother (Token.isAmong_of_command hchar hmem)

variable {setup : Setup μ} {command : Command}

theorem idle_course (houtside : Outside courseSymbols command) : course.Idle setup command := by
  cases command with
  | forward => exact absurd (by decide) (houtside 'F' rfl)
  | turn axis backward =>
      obtain ⟨char, hchar, hmem⟩ : ∃ char, (Command.turn axis backward).char? = some char ∧
          CodePoint.ofChar char ∈ courseSymbols := by
        cases axis <;> cases backward <;> exact ⟨_, rfl, by decide⟩
      exact absurd hmem (houtside char hchar)
  | lengthen => exact absurd (by decide) (houtside '"' rfl)
  | shorten => exact absurd (by decide) (houtside '_' rfl)
  | openBranch => exact absurd (by decide) (houtside '[' rfl)
  | closeBranch => exact absurd (by decide) (houtside ']' rfl)
  | _ =>
      refine ⟨by decide, by decide, fun state next parameter hobey => ?_⟩
      obtain rfl := Except.ok.inj hobey
      rfl

theorem idle_width (houtside : Outside widthSymbols command) : width.Idle setup command := by
  cases command with
  | forward => exact absurd (by decide) (houtside 'F' rfl)
  | widen => exact absurd (by decide) (houtside '!' rfl)
  | narrow => exact absurd (by decide) (houtside '?' rfl)
  | openBranch => exact absurd (by decide) (houtside '[' rfl)
  | closeBranch => exact absurd (by decide) (houtside ']' rfl)
  | turn axis backward =>
      refine ⟨by simp [Command.IsBracket], by simp, fun state next parameter hobey => ?_⟩
      obtain ⟨heading, -, rfl⟩ := Except.map_eq_ok.mp hobey
      rfl
  | _ =>
      refine ⟨by decide, by decide, fun state next parameter hobey => ?_⟩
      obtain rfl := Except.ok.inj hobey
      rfl

theorem idle_material (houtside : Outside materialSymbols command) :
    material.Idle setup command := by
  cases command with
  | forward => exact absurd (by decide) (houtside 'F' rfl)
  | choose => exact absurd (by decide) (houtside 'M' rfl)
  | openBranch => exact absurd (by decide) (houtside '[' rfl)
  | closeBranch => exact absurd (by decide) (houtside ']' rfl)
  | turn axis backward =>
      refine ⟨by simp [Command.IsBracket], by simp, fun state next parameter hobey => ?_⟩
      obtain ⟨heading, -, rfl⟩ := Except.map_eq_ok.mp hobey
      rfl
  | _ =>
      refine ⟨by decide, by decide, fun state next parameter hobey => ?_⟩
      obtain rfl := Except.ok.inj hobey
      rfl

theorem exists_char {command : Command} (hcommand : command ≠ .ignore) :
    ∃ char, command.char? = some char ∧ CodePoint.ofChar char ∈ commandSymbols := by
  cases command with
  | ignore => exact absurd rfl hcommand
  | turn axis backward => cases axis <;> cases backward <;> exact ⟨_, rfl, by decide⟩
  | _ => exact ⟨_, rfl, by decide⟩

theorem isAmong_commandSymbols {token : Token} :
    token.IsAmong commandSymbols ↔ token.command ≠ .ignore := by
  constructor
  · rintro ⟨symbol, hmem, hsymbol⟩
    obtain ⟨_, parameter⟩ := token
    obtain rfl : _ = [symbol] := hsymbol
    have hall : ∀ symbol ∈ commandSymbols, Token.command ⟨[symbol], none⟩ ≠ .ignore := by decide
    exact hall symbol hmem
  · intro hcommand
    obtain ⟨char, hchar, hmem⟩ := exists_char hcommand
    exact Token.isAmong_of_command hchar hmem

theorem idle_whole : whole.Idle setup .ignore := by
  refine ⟨by decide, by decide, fun state next parameter hobey => ?_⟩
  exact (Except.ok.inj hobey).symm

end Aspect

section Apart

open Aspect

variable {setup : Setup μ} {tokens : List Token} {segments : List (Segment μ)}

/-- Tokens that are no commands can be left out. -/
theorem interpret_commands (hdrawn : (interpret setup tokens).outcome = .ok segments) :
    (interpret setup (tokens.filter fun token => token.IsAmong commandSymbols)).outcome =
      .ok segments := by
  obtain ⟨last, hrun, -⟩ := interpret_eq_ok.mp hdrawn
  obtain ⟨kept, hkept, hsame⟩ := interpret_filter _ (alike_whole setup)
    (fun token _ hother => by
      rw [not_not.mp (isAmong_commandSymbols.not.mp (of_decide_eq_false hother))]
      exact idle_whole) (Machine.canObey_of_run hrun) hdrawn
  rw [hkept]
  simpa only [whole, List.map_id_fun, id_eq] using congrArg Except.ok hsame

/-- Tokens with the same commands as others that can be drawn can be drawn. -/
theorem exists_interpret_of_commands {less : List Token}
    (hcommands : less.filter (fun token => token.IsAmong commandSymbols) =
      tokens.filter fun token => token.IsAmong commandSymbols)
    (hdrawn : (interpret setup tokens).outcome = .ok segments) :
    ∃ others, (interpret setup less).outcome = .ok others := by
  obtain ⟨last, hrun, -⟩ := interpret_eq_ok.mp hdrawn
  have hcan := Machine.canObey_of_run hrun
  have hnested := (exists_interpret_iff hcan).mp ⟨segments, hdrawn⟩
  refine exists_interpret (fun token htoken => ?_) ?_
  · by_cases hcommand : token.IsAmong commandSymbols
    · have hmem : token ∈ less.filter fun token => token.IsAmong commandSymbols :=
        List.mem_filter.mpr ⟨htoken, decide_eq_true hcommand⟩
      rw [hcommands] at hmem
      exact hcan token (List.mem_of_mem_filter hmem)
    · intro axis backward hturn
      rw [isAmong_commandSymbols, hturn] at hcommand
      exact absurd nofun hcommand
  · -- Only commands open and close branches.
    have hkeep : ∀ command : Command, command.IsBracket → decide (command ≠ .ignore) = true := by
      rintro _ (rfl | rfl) <;> decide
    have hfilter : ∀ tokens : List Token,
        (tokens.map Token.command).filter (fun command => command ≠ .ignore) =
          (tokens.filter fun token => token.IsAmong commandSymbols).map Token.command := by
      intro tokens
      simp only [List.filter_map, Function.comp_def, isAmong_commandSymbols]
    rw [Command.nested_iff_nestedFrom, ← Command.nestedFrom_filter hkeep] at hnested ⊢
    rwa [hfilter, hcommands, ← hfilter]

/-- What it means that the course of a drawing, its widths and its materials do not interfere. -/
structure AspectsApart (setup : Setup μ) (tokens : List Token) (segments : List (Segment μ)) :
    Prop where
  /-- Only the angle, the heading and the two settings of the step have to do with the course. -/
  course : ∀ (other : Setup μ) (others : List (Segment μ)),
    (interpret other tokens).outcome = .ok others → other.angle = setup.angle →
    other.heading = setup.heading → other.lengthScale = setup.lengthScale →
    other.length = setup.length → others.map Segment.ends = segments.map Segment.ends
  width : ∀ (other : Setup μ) (others : List (Segment μ)),
    (interpret other tokens).outcome = .ok others → other.width = setup.width →
    other.widthScale = setup.widthScale → others.map Segment.width = segments.map Segment.width
  material : ∀ (other : Setup μ) (others : List (Segment μ)),
    (interpret other tokens).outcome = .ok others → other.materials = setup.materials →
    other.defaultMaterial = setup.defaultMaterial →
    others.map Segment.material = segments.map Segment.material
  /-- Only steps, turns, changes of the step and branches have to do with the course. -/
  courseTokens : ∃ kept,
    (interpret setup (tokens.filter fun token => token.IsAmong courseSymbols)).outcome = .ok kept ∧
      kept.map Segment.ends = segments.map Segment.ends
  widthTokens : ∃ kept,
    (interpret setup (tokens.filter fun token => token.IsAmong widthSymbols)).outcome = .ok kept ∧
      kept.map Segment.width = segments.map Segment.width
  materialTokens : ∃ kept,
    (interpret setup (tokens.filter fun token => token.IsAmong materialSymbols)).outcome =
      .ok kept ∧ kept.map Segment.material = segments.map Segment.material
  /-- Tokens that are no commands can be taken away or put in anywhere. -/
  commandTokens : ∀ less : List Token,
    less.filter (fun token => token.IsAmong commandSymbols) =
      tokens.filter (fun token => token.IsAmong commandSymbols) →
    (interpret setup less).outcome = .ok segments

theorem map_eq_of_alike {aspect : Aspect μ α β} {other : Setup μ} {others : List (Segment μ)}
    (halike : aspect.Alike setup other) (hdrawn : (interpret setup tokens).outcome = .ok segments)
    (hothers : (interpret other tokens).outcome = .ok others) :
    others.map aspect.ofSegment = segments.map aspect.ofSegment := by
  obtain ⟨last, hrun, -⟩ := interpret_eq_ok.mp hothers
  obtain ⟨kept, hkept, hsame⟩ := interpret_filter (fun _ => true) halike
    (fun _ _ hfalse => nomatch hfalse) (Machine.canObey_of_run hrun) hdrawn
  rw [List.filter_true, hothers] at hkept
  obtain rfl := Except.ok.inj hkept
  exact hsame

/-- The course of a drawing, its widths and its materials do not interfere. -/
theorem interpret_keeps_aspects_apart (hdrawn : (interpret setup tokens).outcome = .ok segments) :
    AspectsApart setup tokens segments := by
  obtain ⟨last, hrun, -⟩ := interpret_eq_ok.mp hdrawn
  have hcan := Machine.canObey_of_run hrun
  refine ⟨?_, ?_, ?_, ?_, ?_, ?_, ?_⟩
  · intro other others hothers hangle hheading hscale hlength
    exact map_eq_of_alike
      (alike_course hangle.symm hheading.symm hscale.symm hlength.symm) hdrawn hothers
  · intro other others hothers hwidth hscale
    exact map_eq_of_alike (alike_width hwidth.symm hscale.symm) hdrawn hothers
  · intro other others hothers hmaterials hdefault
    exact map_eq_of_alike (alike_material hmaterials.symm hdefault.symm) hdrawn hothers
  · exact interpret_filter _ (alike_course rfl rfl rfl rfl) (fun token _ hother =>
      idle_course (outside_of_not_isAmong (of_decide_eq_false hother))) hcan hdrawn
  · exact interpret_filter _ (alike_width rfl rfl) (fun token _ hother =>
      idle_width (outside_of_not_isAmong (of_decide_eq_false hother))) hcan hdrawn
  · exact interpret_filter _ (alike_material rfl rfl) (fun token _ hother =>
      idle_material (outside_of_not_isAmong (of_decide_eq_false hother))) hcan hdrawn
  · intro less hcommands
    obtain ⟨others, hothers⟩ := exists_interpret_of_commands hcommands hdrawn
    have hboth := (interpret_commands hothers).symm
    rw [hcommands, interpret_commands hdrawn] at hboth
    rw [hothers, hboth]

end Apart

/-- A step, and a branch with a wide and a long step, a material and a turn. -/
def variedSteps : List Token :=
  [⟨"F", none⟩, ⟨"X", some 3⟩, ⟨"[", none⟩, ⟨"!", none⟩, ⟨"\"", none⟩, ⟨"M", some 1.5⟩,
    ⟨"F", none⟩, ⟨"+", some 90⟩, ⟨"]", none⟩, ⟨"F", none⟩]

/-- A setup with two materials to choose from and a third one to begin with. -/
def paintedSetup : Setup Nat :=
  { Setup.standard 7 with materials := [8, 9] }

/-- What these steps draw: the branch is wider, longer and of another material. -/
def variedDrawing : List (Segment Nat) :=
  [⟨⟨0, 0, 0⟩, ⟨0, 1, 0⟩, 0.1, 7⟩, ⟨⟨0, 1, 0⟩, ⟨0, 2.5, 0⟩, 0.2, 9⟩,
    ⟨⟨0, 1, 0⟩, ⟨0, 2, 0⟩, 0.1, 7⟩]

theorem variedSteps_aspects_apart :
    (interpret paintedSetup variedSteps).outcome = .ok variedDrawing ∧
      AspectsApart paintedSetup variedSteps variedDrawing := by
  have hdrawn : (interpret paintedSetup variedSteps).outcome = .ok variedDrawing := by
    decide +kernel
  exact ⟨hdrawn, interpret_keeps_aspects_apart hdrawn⟩

end Lindenmayer
