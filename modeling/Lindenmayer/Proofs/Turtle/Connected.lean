import Lindenmayer.Proofs.Outcome
import Lindenmayer.Proofs.Turtle.Run

/-!
# Connected drawings

Every turtle that a run can come back to stands at the origin or at the end of a segment that was
drawn before. So a drawing hangs together: each of its segments is reached from the origin over
earlier ones. Where no branch is closed between two steps, the second goes on where the first ended.
-/

namespace Lindenmayer

variable {μ : Type}

/-- A point at which a drawing can go on: the origin, or where something drawn ends. -/
def Anchored (drawn : List (Segment μ)) (point : Vec3) : Prop :=
  point = Vec3.origin ∨ ∃ segment ∈ drawn, point = segment.finish

theorem Anchored.mono {drawn more : List (Segment μ)} {point : Vec3}
    (hanchored : Anchored drawn point) (hsubset : drawn ⊆ more) : Anchored more point := by
  rcases hanchored with horigin | ⟨segment, hsegment, hfinish⟩
  · exact .inl horigin
  · exact .inr ⟨segment, hsubset hsegment, hfinish⟩

theorem State.position_obey {setup : Setup μ} {state next : State μ} {command : Command}
    {parameter : Option Float} (hobey : state.obey setup command parameter = .ok next) :
    next.position =
      if command = .forward then (state.segment parameter).finish else state.position := by
  cases command with
  | turn axis backward =>
      obtain ⟨heading, -, rfl⟩ := Except.map_eq_ok.mp hobey
      rfl
  | _ =>
      obtain rfl := Except.ok.inj hobey
      rfl

namespace Machine

variable {setup : Setup μ} {machine next last : Machine μ} {token : Token} {tokens : List Token}

/-- The turtle and all turtles to come back to are anchored in what was drawn, and each segment
starts at a point that was anchored in what was drawn before it. -/
structure IsRooted (machine : Machine μ) : Prop where
  state : Anchored machine.drawn machine.state.position
  branches : ∀ state ∈ machine.branches, Anchored machine.drawn state.position
  drawn : ∀ later segment earlier, machine.drawn = later ++ segment :: earlier →
    Anchored earlier segment.start

theorem isRooted_initial (setup : Setup μ) : (initial setup).IsRooted where
  state := .inl rfl
  branches := nofun
  drawn later segment earlier hdrawn := by simp [initial] at hdrawn

theorem IsRooted.forward (hrooted : machine.IsRooted) (hforward : token.command = .forward)
    {state : State μ} (hobey : machine.state.obey setup token.command token.parameter = .ok state)
    (index : Nat) :
    IsRooted ⟨state, machine.branches, machine.state.segment token.parameter :: machine.drawn,
      index⟩ := by
  have hposition := State.position_obey hobey
  rw [if_pos hforward] at hposition
  refine ⟨.inr ⟨_, List.mem_cons_self, hposition⟩, fun other hother => ?_, ?_⟩
  · exact (hrooted.branches other hother).mono (List.subset_cons_self _ _)
  · intro later segment earlier hdrawn
    cases later with
    | nil =>
        obtain ⟨rfl, rfl⟩ := List.cons.inj hdrawn
        exact hrooted.state
    | cons newest later => exact hrooted.drawn later segment earlier (List.cons.inj hdrawn).2

theorem IsRooted.step (hrooted : machine.IsRooted) (hstep : machine.step setup token = .ok next) :
    next.IsRooted := by
  rcases step_eq_ok hstep with ⟨-, rfl⟩ | ⟨-, state, branches, hopened, rfl⟩ |
    ⟨-, state, hobey, rfl⟩
  · exact ⟨hrooted.state, List.forall_mem_cons.mpr ⟨hrooted.state, hrooted.branches⟩,
      hrooted.drawn⟩
  · -- The turtle that comes back was anchored all the time, since what is drawn stays drawn.
    have hbranches := hrooted.branches
    rw [hopened, List.forall_mem_cons] at hbranches
    exact ⟨hbranches.1, hbranches.2, hrooted.drawn⟩
  · by_cases hforward : token.command = .forward
    · rw [State.drawing, if_pos hforward]
      exact hrooted.forward hforward hobey _
    · rw [State.drawing, if_neg hforward]
      have hposition := State.position_obey hobey
      rw [if_neg hforward] at hposition
      exact ⟨hposition ▸ hrooted.state, hrooted.branches, hrooted.drawn⟩

theorem IsRooted.run (hrooted : machine.IsRooted) (hrun : machine.run setup tokens = .ok last) :
    last.IsRooted := by
  induction tokens generalizing machine with
  | nil =>
      obtain rfl := Except.ok.inj hrun
      exact hrooted
  | cons token tokens ih =>
      obtain ⟨next, hstep, hrest⟩ := run_cons_eq_ok.mp hrun
      exact ih (hrooted.step hstep) hrest

/-- A step forward draws from where the turtle is to where it will be. -/
theorem step_forward (hforward : token.command = .forward)
    (hstep : machine.step setup token = .ok next) :
    ∃ segment, next.drawn = segment :: machine.drawn ∧ segment.start = machine.state.position ∧
      next.state.position = segment.finish := by
  have hplain : ¬ token.command.IsBracket := by
    rw [hforward]
    decide
  rw [step_plain setup machine hplain] at hstep
  obtain ⟨state, hobey, rfl⟩ := Except.map_eq_ok.mp hstep
  refine ⟨machine.state.segment token.parameter, ?_, rfl, ?_⟩
  · rw [State.drawing, if_pos hforward]
    rfl
  · rw [State.position_obey hobey, if_pos hforward]

/-- Neither a step forward nor the end of a branch, so the turtle stays where it is. -/
theorem step_still (hforward : token.command ≠ .forward) (hclose : token.command ≠ .closeBranch)
    (hstep : machine.step setup token = .ok next) :
    next.drawn = machine.drawn ∧ next.state.position = machine.state.position := by
  rcases step_eq_ok hstep with ⟨-, rfl⟩ | ⟨hclosing, -⟩ | ⟨-, state, hobey, rfl⟩
  · exact ⟨rfl, rfl⟩
  · exact absurd hclosing hclose
  · rw [State.drawing, if_neg hforward, State.position_obey hobey, if_neg hforward]
    exact ⟨rfl, rfl⟩

theorem run_still
    (hstill : ∀ token ∈ tokens, token.command ≠ .forward ∧ token.command ≠ .closeBranch)
    (hrun : machine.run setup tokens = .ok last) :
    last.drawn = machine.drawn ∧ last.state.position = machine.state.position := by
  induction tokens generalizing machine with
  | nil =>
      obtain rfl := Except.ok.inj hrun
      exact ⟨rfl, rfl⟩
  | cons token tokens ih =>
      obtain ⟨next, hstep, hrest⟩ := run_cons_eq_ok.mp hrun
      obtain ⟨htoken, htokens⟩ := List.forall_mem_cons.mp hstill
      obtain ⟨hdrawn, hposition⟩ := step_still htoken.1 htoken.2 hstep
      obtain ⟨hlast, hend⟩ := ih htokens hrest
      exact ⟨hlast.trans hdrawn, hend.trans hposition⟩

/-- Two steps forward without another one or the end of a branch between them draw one segment
after the other. -/
theorem drawn_continued {first second : Token} {before between after : List Token}
    (hfirst : first.command = .forward) (hsecond : second.command = .forward)
    (hstill : ∀ token ∈ between, token.command ≠ .forward ∧ token.command ≠ .closeBranch)
    (hrun : machine.run setup (before ++ first :: (between ++ second :: after)) = .ok last) :
    ∃ (later : List (Segment μ)) (new old : Segment μ) (earlier : List (Segment μ)),
      last.drawn = later ++ new :: old :: (earlier ++ machine.drawn) ∧
        earlier.length = forwardCount before ∧ new.start = old.finish := by
  obtain ⟨reached, hbefore, hsteps⟩ := run_append_eq_ok.mp hrun
  obtain ⟨moved, hmove, hbetween⟩ := run_cons_eq_ok.mp hsteps
  obtain ⟨still, hwait, hrest⟩ := run_append_eq_ok.mp hbetween
  obtain ⟨again, hagain, hafter⟩ := run_cons_eq_ok.mp hrest
  obtain ⟨earlier, hearlier, hlength, -⟩ := run_relocate hbefore
  obtain ⟨later, hlater, -, -⟩ := run_relocate hafter
  obtain ⟨old, hold, -, hfinish⟩ := step_forward hfirst hmove
  obtain ⟨hsame, hposition⟩ := run_still hstill hwait
  obtain ⟨new, hnew, hstart, -⟩ := step_forward hsecond hagain
  refine ⟨later, new, old, earlier, ?_, hlength, ?_⟩
  · rw [hlater, hnew, hsame, hold, hearlier]
  · rw [hstart, hposition, hfinish]

end Machine

/-- The points that are reached from the origin along some segments. -/
inductive Reached (segments : List (Segment μ)) : Vec3 → Prop where
  | origin : Reached segments Vec3.origin
  | along {segment : Segment μ} (hsegment : segment ∈ segments)
      (hstart : Reached segments segment.start) : Reached segments segment.finish

theorem Reached.mono {segments more : List (Segment μ)} {point : Vec3}
    (hreached : Reached segments point) (hsubset : segments ⊆ more) : Reached more point := by
  induction hreached with
  | origin => exact .origin
  | along hsegment _ ih => exact .along (hsubset hsegment) ih

/-- If each segment is anchored in the ones before it, all of them are reached. -/
theorem reached_of_anchored {segments : List (Segment μ)}
    (hanchored : ∀ before segment after, segments = before ++ segment :: after →
      Anchored before segment.start) :
    ∀ segment ∈ segments, Reached segments segment.start := by
  induction segments using List.reverseRecOn with
  | nil => nofun
  | append_singleton front newest ih =>
      have hfront := ih fun before segment after hsplit =>
        hanchored before segment (after ++ [newest]) (by rw [hsplit]; simp)
      have hsubset : front ⊆ front ++ [newest] := List.subset_append_left _ _
      intro segment hsegment
      rcases List.mem_append.mp hsegment with hold | hnew
      · exact (hfront segment hold).mono hsubset
      · obtain rfl := List.mem_singleton.mp hnew
        -- The newest segment starts where one before it ends, which is reached without it.
        rcases hanchored front segment [] rfl with horigin | ⟨earlier, hearlier, hfinish⟩
        · rw [horigin]
          exact .origin
        · rw [hfinish]
          exact .along (hsubset hearlier) ((hfront earlier hearlier).mono hsubset)

/-- What it means that a drawing is a tree that grows from the origin. -/
structure Connected (tokens : List Token) (segments : List (Segment μ)) : Prop where
  /-- Each segment starts at the origin or exactly where an earlier one ends. -/
  anchored : ∀ (before : List (Segment μ)) (segment : Segment μ) (after : List (Segment μ)),
    segments = before ++ segment :: after →
      segment.start = Vec3.origin ∨ ∃ earlier ∈ before, segment.start = earlier.finish
  /-- All segments are reached from the origin along others. -/
  reached : ∀ segment ∈ segments, Reached segments segment.start
  /-- A step goes on where the last one ended if no branch is closed between them. -/
  continued : ∀ (before : List Token) (first : Token) (between : List Token) (second : Token)
      (after : List Token), tokens = before ++ first :: (between ++ second :: after) →
    first.symbol = Text.ofString "F" → second.symbol = Text.ofString "F" →
    (∀ token ∈ between, token.symbol ≠ Text.ofString "F" ∧ token.symbol ≠ Text.ofString "]") →
    ∃ (earlier : List (Segment μ)) (old new : Segment μ) (later : List (Segment μ)),
      segments = earlier ++ old :: new :: later ∧
        earlier.length = (before.map Token.symbol).count (Text.ofString "F") ∧
          new.start = old.finish

/-- Every drawing is a tree that grows from the origin. -/
theorem interpret_connected {setup : Setup μ} {tokens : List Token} {segments : List (Segment μ)}
    (hdrawn : (interpret setup tokens).outcome = .ok segments) : Connected tokens segments := by
  obtain ⟨last, hrun, rfl⟩ := interpret_eq_ok.mp hdrawn
  have hrooted := (Machine.isRooted_initial setup).run hrun
  have hanchored : ∀ before segment after, last.segments = before ++ segment :: after →
      Anchored before segment.start := by
    intro before segment after hsplit
    have hreverse := congrArg List.reverse hsplit
    rw [Machine.segments, List.reverse_reverse, List.reverse_append, List.reverse_cons,
      List.append_assoc] at hreverse
    refine (hrooted.drawn after.reverse segment before.reverse hreverse).mono ?_
    exact fun _ => List.mem_reverse.mp
  refine ⟨hanchored, reached_of_anchored hanchored, ?_⟩
  rintro before first between second after rfl hfirst hsecond hstill
  have hquiet : ∀ token ∈ between, token.command ≠ .forward ∧ token.command ≠ .closeBranch :=
    fun token htoken => (hstill token htoken).imp (mt Token.command_eq_forward_iff.mp)
      (mt Token.command_eq_closeBranch_iff.mp)
  obtain ⟨later, new, old, earlier, hlast, hlength, hstart⟩ :=
    Machine.drawn_continued (Token.command_eq_forward_iff.mpr hfirst)
      (Token.command_eq_forward_iff.mpr hsecond) hquiet hrun
  refine ⟨earlier.reverse, old, new, later.reverse, ?_, ?_, hstart⟩
  · simp [Machine.segments, hlast, Machine.initial]
  · rw [List.length_reverse, hlength, forwardCount_eq_count]

/-- Steps with a branch inside a branch between them. -/
def forkedSteps : List Token :=
  [⟨"F", none⟩, ⟨"[", none⟩, ⟨"F", some 2⟩, ⟨"[", none⟩, ⟨"F", none⟩, ⟨"]", none⟩, ⟨"]", none⟩,
    ⟨"F", none⟩]

/-- What these steps draw: each branch goes on from where it begins. -/
def forkedDrawing : List (Segment Unit) :=
  [⟨⟨0, 0, 0⟩, ⟨0, 1, 0⟩, 0.1, ()⟩, ⟨⟨0, 1, 0⟩, ⟨0, 3, 0⟩, 0.1, ()⟩,
    ⟨⟨0, 3, 0⟩, ⟨0, 4, 0⟩, 0.1, ()⟩, ⟨⟨0, 1, 0⟩, ⟨0, 2, 0⟩, 0.1, ()⟩]

theorem forkedSteps_connected :
    (interpret (Setup.standard ()) forkedSteps).outcome = .ok forkedDrawing ∧
      Connected forkedSteps forkedDrawing := by
  have hdrawn : (interpret (Setup.standard ()) forkedSteps).outcome = .ok forkedDrawing := by
    decide +kernel
  exact ⟨hdrawn, interpret_connected hdrawn⟩

end Lindenmayer
