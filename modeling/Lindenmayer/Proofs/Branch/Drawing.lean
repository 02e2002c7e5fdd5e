import Lindenmayer.Proofs.Branch.Path
import Lindenmayer.Proofs.Turtle.Run

/-!
# Drawing along paths

The machine with its remembered turtles is compared with a turtle that has no memory: the turtle
that follows the path of the tokens read so far. Both are in the same state before every token, so
every segment is drawn from the state at the end of a path, and a closed branch draws its own
segments and no others.
-/

namespace Lindenmayer

open Command

variable {μ : Type}

/-- The turtle after it has obeyed some tokens; brackets leave it as it is. -/
def State.follow (setup : Setup μ) (state : State μ) (tokens : List Token) :
    Except Fault (State μ) :=
  tokens.foldlM (fun state token => state.obey setup token.command token.parameter) state

/-- The turtle at the end of the path of some tokens. -/
def pathState (setup : Setup μ) (tokens : List Token) : Except Fault (State μ) :=
  (State.initial setup).follow setup (path tokens)

/-- The steps forward among some tokens, each with its position. -/
def forwards (tokens : List Token) : List (Token × Nat) :=
  tokens.zipIdx.filter fun entry => entry.1.command = .forward

theorem pathState_concat_plain (setup : Setup μ) (tokens : List Token) {token : Token}
    (hplain : ¬ token.command.IsBracket) :
    pathState setup (tokens ++ [token]) =
      (pathState setup tokens).bind fun state =>
        state.obey setup token.command token.parameter := by
  rw [pathState, State.follow, path_concat_plain tokens hplain, List.foldlM_append]
  congr 1
  funext state
  exact bind_pure _

theorem forwards_concat (tokens : List Token) (token : Token) :
    forwards (tokens ++ [token]) = forwards tokens ++
      if token.command = .forward then [(token, tokens.length)] else [] := by
  rw [forwards, List.zipIdx_append, List.filter_append, ← forwards, List.zipIdx_singleton,
    List.filter_singleton]
  by_cases hforward : token.command = .forward <;> simp [hforward]

/-- The machine's turtle is the one that follows the path of what has been read. -/
theorem pathState_of_run {setup : Setup μ} {tokens : List Token} {last : Machine μ}
    (hrun : (Machine.initial setup).run setup tokens = .ok last) :
    pathState setup tokens = .ok last.state := by
  -- Only the machine comes back to earlier turtles, so a branch is compared as a whole.
  refine nested_induction (motive := fun tokens => ∀ last,
    (Machine.initial setup).run setup tokens = .ok last →
      pathState setup tokens = .ok last.state) ?nil ?plain ?opened ?branch tokens
    (Machine.nested_of_run hrun) last hrun
  case nil =>
    intro last hrun
    rw [Machine.run_nil, Except.ok.injEq] at hrun
    rw [← hrun]
    rfl
  case plain =>
    intro tokens token hplain ih last hrun
    obtain ⟨middle, hmiddle, hstep⟩ := Machine.run_append_eq_ok.mp hrun
    rw [Machine.run_singleton, Machine.step_plain setup middle hplain] at hstep
    rw [pathState_concat_plain setup tokens hplain, ih middle hmiddle]
    change middle.state.obey setup token.command token.parameter = _
    cases hobey : middle.state.obey setup token.command token.parameter with
    | error fault => simp [hobey, Except.map] at hstep
    | ok state =>
        simp only [hobey, Except.map, Except.ok.injEq] at hstep
        rw [← hstep]
  case opened =>
    intro tokens token hopen ih last hrun
    obtain ⟨middle, hmiddle, hstep⟩ := Machine.run_append_eq_ok.mp hrun
    rw [Machine.run_singleton, Machine.step_open setup middle hopen, Except.ok.injEq] at hstep
    rw [pathState, path_concat_open tokens hopen, ← pathState, ih middle hmiddle, ← hstep]
  case branch =>
    intro tokens opening inner closing hopen hclose hinner ih last hrun
    obtain ⟨middle, hmiddle, hbranch⟩ := Machine.run_append_eq_ok.mp hrun
    rw [pathState, path_append_branch tokens hopen hclose hinner, ← pathState,
      ih middle hmiddle, (Machine.run_branch hopen hclose hinner hbranch).1]

/-- Each segment starts where a path ends and is drawn by the step forward that follows it. -/
theorem segments_of_run {setup : Setup μ} {tokens : List Token} {last : Machine μ}
    (hrun : (Machine.initial setup).run setup tokens = .ok last) :
    last.segments.map .ok = (forwards tokens).map fun entry =>
      (pathState setup (tokens.take entry.2)).map fun state =>
        state.segment entry.1.parameter := by
  induction tokens using List.reverseRecOn generalizing last with
  | nil =>
      rw [Machine.run_nil, Except.ok.injEq] at hrun
      rw [← hrun]
      rfl
  | append_singleton tokens token ih =>
      obtain ⟨middle, hmiddle, hstep⟩ := Machine.run_append_eq_ok.mp hrun
      rw [Machine.run_singleton] at hstep
      have hbefore : (forwards tokens).map (fun entry =>
          (pathState setup ((tokens ++ [token]).take entry.2)).map fun state =>
            state.segment entry.1.parameter) = middle.segments.map .ok := by
        rw [ih hmiddle]
        apply List.map_congr_left
        intro entry hentry
        have hindex := List.snd_lt_of_mem_zipIdx (List.mem_of_mem_filter hentry)
        rw [List.take_append_of_le_length (by omega)]
      rw [forwards_concat, List.map_append, hbefore]
      rcases Machine.step_eq_ok hstep with ⟨hopen, rfl⟩ | ⟨hclose, _, _, _, rfl⟩ | ⟨_, _, _, rfl⟩
      · simp [Machine.segments, hopen]
      · simp [Machine.segments, hclose]
      · by_cases hforward : token.command = .forward
        · simp [Machine.segments, State.drawing, hforward, pathState_of_run hmiddle, Except.map]
        · simp [Machine.segments, State.drawing, hforward]

/-- A closed branch can be deleted: what is lost are the segments that it draws itself. -/
theorem segments_delete_branch {setup : Setup μ} {before inner after : List Token}
    {opening closing : Token} {last : Machine μ} (hopen : opening.command = .openBranch)
    (hclose : closing.command = .closeBranch) (hinner : Balanced (inner.map Token.command))
    (hrun : (Machine.initial setup).run setup
      (before ++ (opening :: inner ++ [closing]) ++ after) = .ok last) :
    ∃ first own rest, last.segments = first ++ own ++ rest ∧
      first.length = forwardCount before ∧ own.length = forwardCount inner ∧
      (interpret setup (before ++ after)).outcome = .ok (first ++ rest) := by
  obtain ⟨closed, hclosed, hafter⟩ := Machine.run_append_eq_ok.mp hrun
  obtain ⟨middle, hmiddle, hbranch⟩ := Machine.run_append_eq_ok.mp hclosed
  obtain ⟨hstate, hbranches⟩ := Machine.run_branch hopen hclose hinner hbranch
  obtain ⟨first, hfirst, hfirstLength, _⟩ := Machine.run_relocate hmiddle
  obtain ⟨own, hown, hownLength, _⟩ := Machine.run_relocate hbranch
  obtain ⟨rest, hrest, _, hmoved⟩ := Machine.run_relocate hafter
  refine ⟨first.reverse, own.reverse, rest.reverse, ?_, ?_, ?_, ?_⟩
  · simp [Machine.segments, hrest, hown, hfirst, Machine.initial]
  · rw [List.length_reverse, hfirstLength]
  · rw [List.length_reverse, hownLength]
    simp [forwardCount, hopen, hclose]
  · refine interpret_eq_ok.mpr ⟨⟨last.state, last.branches, rest ++ middle.drawn,
      middle.index + after.length⟩, Machine.run_append_eq_ok.mpr ⟨middle, hmiddle, ?_⟩, ?_⟩
    · rw [← hmoved, hstate, hbranches]
    · simp [Machine.segments, hfirst, Machine.initial]

/-- What it means that segments were drawn by a turtle without a memory for branches. -/
structure DrawnAlongPaths (setup : Setup μ) (tokens : List Token)
    (segments : List (Segment μ)) : Prop where
  /-- Before every token, the machine's turtle has followed the path of the tokens read. -/
  states : ∀ index, ∃ machine, (Machine.initial setup).run setup (tokens.take index) = .ok machine ∧
    pathState setup (tokens.take index) = .ok machine.state
  /-- The segments are those of the steps forward, in order. Each starts where the path of the
  tokens before its step ends, with the width and the material of the turtle there, and is as long
  as the parameter says, or else as the turtle's step. -/
  drawn : segments.map .ok = (forwards tokens).map fun entry =>
    (pathState setup (tokens.take entry.2)).map fun state =>
      ⟨state.position, state.position + state.heading.scale (entry.1.parameter.getD state.length),
        state.width, state.material⟩
  /-- Without one of the closed branches, only the segments of its own steps forward are missing. -/
  delete : ∀ before opening inner closing after,
    tokens = before ++ (opening :: inner ++ [closing]) ++ after →
    opening.command = .openBranch → closing.command = .closeBranch →
    Balanced (inner.map Token.command) →
    ∃ first own rest, segments = first ++ own ++ rest ∧
      first.length = forwardCount before ∧ own.length = forwardCount inner ∧
      (interpret setup (before ++ after)).outcome = .ok (first ++ rest)

/-- A drawing with branches is the one of a turtle that only follows paths. -/
theorem interpret_drawnAlongPaths {setup : Setup μ} {tokens : List Token}
    {segments : List (Segment μ)} (hdrawn : (interpret setup tokens).outcome = .ok segments) :
    DrawnAlongPaths setup tokens segments := by
  obtain ⟨last, hrun, rfl⟩ := interpret_eq_ok.mp hdrawn
  refine ⟨fun index => ?_, segments_of_run hrun, ?_⟩
  · rw [← List.take_append_drop index tokens] at hrun
    obtain ⟨machine, hmachine, _⟩ := Machine.run_append_eq_ok.mp hrun
    exact ⟨machine, hmachine, pathState_of_run hmachine⟩
  · rintro before opening inner closing after rfl hopen hclose hinner
    exact segments_delete_branch hopen hclose hinner hrun

/-- A step, a branch with a wide step of two lengths, and a step after it. -/
def wideBranch : List Token :=
  [⟨"F", none⟩, ⟨"[", none⟩, ⟨"!", none⟩, ⟨"F", some 2⟩, ⟨"]", none⟩, ⟨"F", none⟩]

theorem wideBranch_drawnAlongPaths :
    (interpret (Setup.standard ()) wideBranch).outcome = .ok
      [⟨⟨0, 0, 0⟩, ⟨0, 1, 0⟩, 0.1, ()⟩, ⟨⟨0, 1, 0⟩, ⟨0, 3, 0⟩, 0.2, ()⟩,
        ⟨⟨0, 1, 0⟩, ⟨0, 2, 0⟩, 0.1, ()⟩] ∧
    DrawnAlongPaths (Setup.standard ()) wideBranch
      [⟨⟨0, 0, 0⟩, ⟨0, 1, 0⟩, 0.1, ()⟩, ⟨⟨0, 1, 0⟩, ⟨0, 3, 0⟩, 0.2, ()⟩,
        ⟨⟨0, 1, 0⟩, ⟨0, 2, 0⟩, 0.1, ()⟩] :=
  ⟨by decide +kernel, interpret_drawnAlongPaths (by decide +kernel)⟩

end Lindenmayer
