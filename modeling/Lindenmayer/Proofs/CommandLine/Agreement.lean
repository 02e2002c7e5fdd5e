import Lindenmayer.Proofs.CommandLine.Files
import Lindenmayer.Proofs.CommandLine.Sample
import Lindenmayer.Proofs.Scene.Drawing

/-!
# Agreement of commands

`validate` draws a sample of a scene, and `generate` draws its last generation. Where no generation
is too long they draw the same: they fail alike, or `validate` tells the numbers and the bounds of
what `generate` writes.
-/

namespace Lindenmayer

namespace Session

variable {host : Host} {store : Store} {path output : Text} {scene : Scene}

theorem sampleLines_whole (word : Text) (generation tokens segments : Nat) :
    sampleLines ⟨word, generation, false⟩ tokens segments =
      ["symbols (sampled): " ++ Text.ofNat word.length,
        "tokens: " ++ Text.ofNat tokens,
        "segments: " ++ Text.ofNat segments] := by
  have hsize : Sample.sizeText ⟨word, generation, false⟩ = Text.ofNat word.length :=
    List.append_nil _
  rw [sampleLines, hsize]
  rfl

/-- What is said of the bounds of segments: nothing if there are none, and otherwise their least and
greatest coordinates in four digits. -/
inductive TellsBounds {μ : Type} (segments : List (Segment μ)) : List Text → Prop where
  | nothing (hnone : segments = []) : TellsBounds segments []
  | bounds {least greatest : Vec3} (hbounds : Bounds.ofSegments segments = .ok ⟨least, greatest⟩) :
      TellsBounds segments
        ["bounds: min=(" ++ Layout.writeBrief least.x ++ ", " ++ Layout.writeBrief least.y ++
          ", " ++ Layout.writeBrief least.z ++ ") max=(" ++ Layout.writeBrief greatest.x ++
          ", " ++ Layout.writeBrief greatest.y ++ ", " ++ Layout.writeBrief greatest.z ++ ")"]

theorem tellsBounds_boundsLines {μ : Type} (segments : List (Segment μ)) :
    TellsBounds segments (boundsLines segments) := by
  cases segments with
  | nil => exact .nothing rfl
  | cons segment segments =>
      obtain ⟨bounds, hbounds⟩ := Bounds.exists_ofSegments (List.cons_ne_nil segment segments)
      have hline := TellsBounds.bounds hbounds
      simp only [List.append_assoc] at hline
      simp only [boundsLines, hbounds, boundsLine, vectorText_eq, List.append_assoc]
      exact hline

/-- Where no generation is too long, a drawing is described to its end. -/
theorem printedAt_of_allShort (hscene : sceneAt host store path = .ok scene)
    (hname : host.Shows scene.name)
    (hshort : (RuleTable.ofRules scene.rules).1.AllShort scene.iterations scene.start)
    {tokens : List Token} {segments : List (Segment (Option Text))}
    (htokens : tokenize ((RuleTable.ofRules scene.rules).1.generation scene.iterations
      scene.start) = .ok tokens)
    (hsegments : (interpret scene.setup tokens).outcome = .ok segments) :
    printedAt host store path =
      sceneLines scene (RuleTable.ofRules scene.rules).1 ++
        ["symbols (sampled): " ++ Text.ofNat
            ((RuleTable.ofRules scene.rules).1.generation scene.iterations scene.start).length,
          "tokens: " ++ Text.ofNat tokens.length,
          "segments: " ++ Text.ofNat segments.length] ++ boundsLines segments := by
  rw [printedAt_of_scene hscene hname, sampledLines, sampledWord,
    RuleTable.sample_of_allShort hshort]
  dsimp only
  rw [htokens, Except.mapError_ok, afterwards_ok, hsegments, Except.mapError_ok, afterwards_ok,
    sampleLines_whole, List.append_assoc]

/-- Where no generation is too long, `validate` judges what `generate` draws. -/
theorem validatedAt_of_allShort (hscene : sceneAt host store path = .ok scene)
    (hname : host.Shows scene.name)
    (hshort : (RuleTable.ofRules scene.rules).1.AllShort scene.iterations scene.start) :
    validatedAt host store path =
      ((draw scene.setup scene.rules scene.start scene.iterations).outcome.mapError
        .drawing).bind judge := by
  rw [validatedAt_of_scene hscene hname, sampledAt, outcome_draw, sampledWord,
    RuleTable.sample_of_allShort hshort]
  dsimp only
  cases tokenize ((RuleTable.ofRules scene.rules).1.generation scene.iterations scene.start) <;> rfl

theorem judge_ne_drawing {μ : Type} (segments : List (Segment μ)) (fault : Fault) :
    judge segments ≠ .error (.drawing fault) := by
  rw [judge]
  split <;> simp

theorem savedAt_ne_drawing {document : Document} (fault : Fault) :
    savedAt store output document ≠ .error (.drawing fault) := by
  rw [savedAt]
  split <;> simp

end Session

/-- A completion that ends with the judgement of some segments shows whether there are any. -/
theorem Completion.EndsWith.judged {μ : Type} {completion : Completion}
    {segments : List (Segment μ)} (hends : completion.EndsWith (Session.judge segments)) :
    (segments ≠ [] → completion.ending = .exited 0) ∧
      (segments = [] ↔ completion.ending = .exited 2 ∧ ∃ log, completion.errors =
        log ++ "Config error: Config produces no drawable geometry\n") := by
  obtain ⟨hending, log, herrors⟩ := hends
  cases segments with
  | nil =>
      refine ⟨fun hne => absurd rfl hne, iff_of_true rfl ⟨hending, Invocation.linesText log, ?_⟩⟩
      rw [herrors, Invocation.linesText, List.flatMap_append]
      rfl
  | cons segment segments =>
      refine ⟨fun _ => hending, iff_of_false (List.cons_ne_nil _ _) ?_⟩
      rintro ⟨hnothing, -⟩
      rw [hending] at hnothing
      cases hnothing

/-- Where no generation is too long, `validate` fails to draw a scene exactly as `generate` does.
Otherwise it prints the numbers of symbols, tokens and segments of the drawing and its bounds, and
fails for want of segments exactly if the drawing that `generate` writes is empty. -/
theorem validate_agrees_with_generate {host : Host} {store : Store} {checking drawing : List Text}
    {path output : Text} {verbose telling : Bool} {scene : Scene}
    (hchecking : Invocation.ofTexts checking = .ok ⟨.validate path, verbose⟩)
    (hdrawing : Invocation.ofTexts drawing = .ok ⟨.generate path (some output), telling⟩)
    (hscene : Session.sceneAt host store path = .ok scene) (hname : host.Shows scene.name)
    (hshort : (RuleTable.ofRules scene.rules).1.AllShort scene.iterations scene.start) :
    let validated := (Job.validate path).outcome host store
    let generated := (Job.generate path (some output)).outcome host store
    let checked := runCommandLine host store checking
    let drawn := runCommandLine host store drawing
    checked.EndsWith validated ∧ drawn.EndsWith generated ∧
    (∀ fault, validated = .error (.drawing fault) ↔ generated = .error (.drawing fault)) ∧
    ((∀ fault, generated ≠ .error (.drawing fault)) → ∃ word tokens segments bounds,
      (grow scene.rules scene.start scene.iterations).outcome = .ok word ∧
      tokenize word = .ok tokens ∧
      (draw scene.setup scene.rules scene.start scene.iterations).outcome = .ok segments ∧
      checked.output = Invocation.linesText
        (Session.sceneLines scene (RuleTable.ofRules scene.rules).1 ++
          ["symbols (sampled): " ++ Text.ofNat word.length,
            "tokens: " ++ Text.ofNat tokens.length,
            "segments: " ++ Text.ofNat segments.length] ++ bounds) ∧
      Session.TellsBounds segments bounds ∧
      (segments ≠ [] → checked.ending = .exited 0) ∧
      (segments = [] ↔ checked.ending = .exited 2 ∧ ∃ log, checked.errors =
        log ++ "Config error: Config produces no drawable geometry\n") ∧
      (generated = .ok () ↔ store.Writable output ∧
        (drawingDocument materialDocument scene.name segments).Encodable) ∧
      (generated = .ok () → ∃ bytes, drawn.store.read output = .ok bytes ∧
        Document.ofBytes host.nesting bytes =
          .ok (drawingDocument materialDocument scene.name segments) ∧
        Document.IsDrawing materialDocument scene.name segments
          (drawingDocument materialDocument scene.name segments))) := by
  intro validated generated checked drawn
  have hvalidated := Session.validatedAt_of_allShort hscene hname hshort
  have hgenerated := Session.generatedAt_of_scene hscene output
  obtain ⟨hchecked, -⟩ := @runCommandLine_endsWith host store _ _ hchecking
  obtain ⟨hdrawn, hstore⟩ := @runCommandLine_endsWith host store _ _ hdrawing
  have hoccurs : validated = _ ∧ generated = _ := ⟨Job.outcome_eq .., Job.outcome_eq ..⟩
  rw [hoccurs.1, hoccurs.2]
  refine ⟨hchecked, hdrawn, ?_, fun hdraws => ?_⟩
  · intro fault
    rw [Session.performedAt, Session.performedAt, hvalidated, hgenerated]
    cases (draw scene.setup scene.rules scene.start scene.iterations).outcome with
    | error other => exact Iff.rfl
    | ok segments =>
        exact iff_of_false (Session.judge_ne_drawing _ _) (Session.savedAt_ne_drawing _)
  · cases hdraw : (draw scene.setup scene.rules scene.start scene.iterations).outcome with
    | error fault =>
        rw [hdraw] at hgenerated
        exact absurd hgenerated (hdraws fault)
    | ok segments =>
        rw [hdraw] at hvalidated hgenerated
        obtain ⟨tokens, htokens, hsegments⟩ := draw_eq_ok.mp hdraw
        rw [Session.performedAt, hvalidated] at hchecked
        obtain ⟨hjudged, hnothing⟩ := hchecked.judged
        have hsaves : (Job.generate path (some output)).Saves host store output _ :=
          .drawing hscene hdraw
        have houtput := @runCommandLine_validate_output host store _ _ _ hchecking
        rw [Session.printedAt_of_allShort hscene hname hshort htokens hsegments] at houtput
        refine ⟨_, tokens, segments, _, outcome_grow .., htokens, rfl, houtput,
          Session.tellsBounds_boundsLines segments, hjudged, hnothing, ?_, fun hgenerates => ?_⟩
        · rw [Session.performedAt, hgenerated]
          exact Session.savedAt_eq_ok
        · obtain ⟨hread, hbytes⟩ := Session.read_storeAfter_of_saves hsaves hgenerates
          rw [← hstore] at hread
          exact ⟨_, hread, hbytes, Document.isDrawing ..⟩

/-- The text of a scene with one rule. -/
def grown (replacement : Text) : Text :=
  "\x7b\"axiom\": \"X\", \"iterations\": 2, \"rules\": [[\"X\", \"" ++ replacement ++ "\"]]\x7d"

/-- The scene of this text. -/
def grownScene (replacement : Text) : Scene :=
  plainScene "X" 2 [⟨"X", replacement⟩]

theorem validate_agrees_with_generate_grown :
    let checking : List Text := ["validate", "scene.json"]
    let drawing : List Text := ["generate", "scene.json", "drawn.json"]
    let store := fun replacement => sceneStore ((grown replacement).flatMap Utf8.encodePoint)
    Invocation.ofTexts checking = .ok ⟨.validate "scene.json", false⟩ ∧
      Invocation.ofTexts drawing = .ok ⟨.generate "scene.json" (some "drawn.json"), false⟩ ∧
      (∀ replacement ∈ (["F[X]", "FX]"] : List Text),
        Session.sceneAt .usual (store replacement) "scene.json" = .ok (grownScene replacement) ∧
        (RuleTable.ofRules (grownScene replacement).rules).1.AllShort 2 "X") ∧
      (Job.validate "scene.json").outcome .usual (store "FX]") =
        .error (.drawing (.branchUnderflow 3)) ∧
      ∃ segments bytes, segments ≠ [] ∧
        (runCommandLine .usual (store "F[X]") drawing).store.read "drawn.json" = .ok bytes ∧
        Document.ofBytes Host.usual.nesting bytes =
          .ok (drawingDocument materialDocument "L-System" segments) := by
  intro checking drawing store
  obtain ⟨hchecking, hdrawing, hscenes, hfails, hsucceeds, hexited⟩ :
      Invocation.ofTexts checking = .ok ⟨.validate "scene.json", false⟩ ∧
      Invocation.ofTexts drawing = .ok ⟨.generate "scene.json" (some "drawn.json"), false⟩ ∧
      (∀ replacement ∈ (["F[X]", "FX]"] : List Text),
        Session.sceneAt .usual (store replacement) "scene.json" = .ok (grownScene replacement) ∧
        (RuleTable.ofRules (grownScene replacement).rules).1.AllShort 2 "X") ∧
      (Job.generate "scene.json" (some "drawn.json")).outcome .usual (store "FX]") =
        .error (.drawing (.branchUnderflow 3)) ∧
      (Job.generate "scene.json" (some "drawn.json")).outcome .usual (store "F[X]") = .ok () ∧
      (runCommandLine .usual (store "F[X]") checking).ending = .exited 0 := by
    decide +kernel
  have hname : ∀ replacement, Host.usual.Shows (grownScene replacement).name := fun _ =>
    Host.shows_of_encodable (show Text.Encodable "L-System" by decide)
  refine ⟨hchecking, hdrawing, hscenes, ?_, ?_⟩
  · obtain ⟨hscene, hshort⟩ := hscenes "FX]" (.tail _ (.head _))
    obtain ⟨-, -, hagree, -⟩ :=
      @validate_agrees_with_generate .usual _ _ _ _ _ _ _ _ hchecking hdrawing hscene (hname _)
        hshort
    exact (hagree (.branchUnderflow 3)).mpr hfails
  · obtain ⟨hscene, hshort⟩ := hscenes "F[X]" (.head _)
    obtain ⟨-, -, -, hagree⟩ :=
      @validate_agrees_with_generate .usual _ _ _ _ _ _ _ _ hchecking hdrawing hscene (hname _)
        hshort
    obtain ⟨-, -, segments, -, -, -, -, -, -, -, hnothing, -, hwritten⟩ :=
      hagree fun fault hfault => nomatch hsucceeds.symm.trans hfault
    obtain ⟨bytes, hread, hbytes, -⟩ := hwritten hsucceeds
    refine ⟨segments, bytes, fun hempty => ?_, hread, hbytes⟩
    rw [hexited] at hnothing
    exact nomatch (hnothing.mp hempty).1

end Lindenmayer
