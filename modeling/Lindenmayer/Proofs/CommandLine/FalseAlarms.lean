import Lindenmayer.Proofs.CommandLine.Agreement
import Lindenmayer.Proofs.Token.Beginnings

/-!
# False alarms

`validate` looks at a sample only, so it can refuse a scene that `generate` draws. It does so
exactly if a generation is too long and the beginning of the first such one cannot be drawn or has
no step forward. The cut through the last generation only matters if it leaves a group open.
-/

namespace Lindenmayer

open Command

theorem drawingDocument_ne_nil {μ : Type} {material : μ → Document} {name other : Text}
    {segments others : List (Segment μ)}
    (hsame : drawingDocument material name segments = drawingDocument material other others)
    (hne : segments ≠ []) : others ≠ [] := by
  rintro rfl
  simp only [drawingDocument, Document.object.injEq, List.cons.injEq, Prod.mk.injEq,
    Document.array.injEq, List.map_nil, List.map_eq_nil_iff] at hsame
  exact hne hsame.2.1.2

namespace Session

variable {host : Host} {store : Store} {path output : Text} {scene : Scene}

/-- Tokens that were read are drawn with segments exactly if they are nested and have a step
forward. -/
theorem exists_segments_iff {μ : Type} {setup : Setup μ} (hangle : setup.angle.isInf = false)
    {word : Text} {tokens : List Token} (htokens : tokenize word = .ok tokens) :
    (∃ segments, (interpret setup tokens).outcome = .ok segments ∧ segments ≠ []) ↔
      Nested (tokens.map Token.command) ∧ forward ∈ tokens.map Token.command := by
  have hnested := exists_interpret_iff (canObey_of_tokenize hangle htokens)
  constructor
  · rintro ⟨segments, hsegments, hne⟩
    exact ⟨hnested.mp ⟨segments, hsegments⟩, (ne_nil_interpret hsegments).mp hne⟩
  · rintro ⟨hcommands, hforward⟩
    obtain ⟨segments, hsegments⟩ := hnested.mpr hcommands
    exact ⟨segments, hsegments, (ne_nil_interpret hsegments).mpr hforward⟩

/-- A scene is valid exactly if its sample can be read, is nested and has a step forward. -/
theorem validatedAt_eq_ok_iff (hscene : sceneAt host store path = .ok scene)
    (hname : host.Shows scene.name) :
    validatedAt host store path = .ok () ↔ ∃ tokens, tokenize (sampledWord scene) = .ok tokens ∧
      Nested (tokens.map Token.command) ∧ forward ∈ tokens.map Token.command := by
  rw [validatedAt_eq_ok hscene hname]
  refine exists_congr fun tokens => ?_
  rw [exists_and_left]
  refine and_congr_right fun htokens => ?_
  exact exists_segments_iff (isInf_angle_of_sceneAt hscene) htokens

/-- What `generate` has written was drawn from a scene whose name can be written. -/
theorem exists_draw_of_generate {name : Text} {bytes : List UInt8}
    {segments : List (Segment (Option Text))}
    (hgenerated : performedAt host store (.generate path (some output)) = .ok ())
    (hread : (storeAfter host store (.generate path (some output))).read output = .ok bytes)
    (hbytes : Document.ofBytes host.nesting bytes =
      .ok (drawingDocument materialDocument name segments)) :
    ∃ scene drawn, sceneAt host store path = .ok scene ∧ scene.name.Encodable ∧
      (draw scene.setup scene.rules scene.start scene.iterations).outcome = .ok drawn ∧
      drawingDocument materialDocument name segments =
        drawingDocument materialDocument scene.name drawn := by
  obtain ⟨scene, hscene, hrest⟩ := Except.bind_eq_ok.mp hgenerated
  obtain ⟨drawn, hdrawn, hsaved⟩ := Except.bind_eq_ok.mp hrest
  have hdraw := Except.mapError_eq_ok.mp hdrawn
  have hencodable := Document.encodable_drawing.mp (savedAt_eq_ok.mp hsaved).2
  obtain ⟨hwritten, hdocument⟩ := read_storeAfter_of_saves (.drawing hscene hdraw) hgenerated
  obtain rfl := Except.ok.inj (hread.symm.trans hwritten)
  exact ⟨scene, drawn, hscene, hencodable.1, hdraw, Except.ok.inj (hbytes.symm.trans hdocument)⟩

end Session

/-- Steps forward and buds are read one by one, and they are nested. -/
theorem exists_tokenize_plain {word : Text} (hword : ∀ point ∈ word, point ∈ Text.ofString "FX") :
    ∃ tokens, tokenize word = .ok tokens ∧ Nested (tokens.map Token.command) ∧
      (forward ∈ tokens.map Token.command ↔ CodePoint.ofChar 'F' ∈ word) := by
  have hplain : ∀ point ∈ Text.ofString "FX", point.isSymbol = true ∧
      point ≠ CodePoint.ofChar '(' ∧ ¬ point.command.IsBracket ∧
      (point.command = forward → point = CodePoint.ofChar 'F') := by decide
  have htokens := tokenize_of_notMem fun hopen => (hplain _ (hword _ hopen)).2.1 rfl
  rw [List.filter_eq_self.mpr fun point hpoint => (hplain point (hword point hpoint)).1] at htokens
  have hcommands : (word.map fun symbol => Token.mk [symbol] none).map Token.command =
      word.commands := List.map_map
  refine ⟨_, htokens, ?_, ?_⟩
  · rw [hcommands]
    have hbalanced : Balanced word.commands := by
      clear htokens hcommands
      induction word with
      | nil => exact balanced_nil
      | cons point word ih =>
          rw [List.forall_mem_cons] at hword
          exact (balanced_singleton (hplain point hword.1).2.2.1).append (ih hword.2)
    exact hbalanced.1
  · rw [hcommands]
    refine ⟨fun hforward => ?_, fun hforward => List.mem_map_of_mem hforward⟩
    obtain ⟨point, hpoint, hcommand⟩ := List.mem_map.mp hforward
    rwa [← (hplain point (hword point hpoint)).2.2.2 hcommand]

/-- A plain scene that ends with steps forward and buds is drawn, and the drawing can be saved. -/
theorem exists_draw_plain {start : Text} {count : Nat} {rules : List Rule}
    (hword : ∀ point ∈ (RuleTable.ofRules rules).1.generation count start,
      point ∈ Text.ofString "FX")
    (hforward : CodePoint.ofChar 'F' ∈ (RuleTable.ofRules rules).1.generation count start) :
    let scene := plainScene start count rules
    ∃ segments, (draw scene.setup scene.rules scene.start scene.iterations).outcome =
        .ok segments ∧ segments ≠ [] ∧
      (drawingDocument materialDocument scene.name segments).Encodable := by
  obtain ⟨tokens, htokens, hnested, hcommand⟩ := exists_tokenize_plain hword
  have hangle : Scene.defaultSetup.angle.isInf = false := by decide
  obtain ⟨segments, hsegments, hne⟩ := (Session.exists_segments_iff hangle htokens).mpr
    ⟨hnested, hcommand.mpr hforward⟩
  have hname : Text.Encodable "L-System" := by decide
  refine ⟨segments, draw_eq_ok.mpr ⟨tokens, htokens, hsegments⟩, hne,
    Document.encodable_drawing.mpr ⟨hname, fun segment hsegment => ?_⟩⟩
  have hmaterial := material_interpret hsegments segment hsegment
  rw [List.mem_singleton.mp hmaterial]
  decide

/-- The text of a scene in which every bud becomes ten of them in front of a step forward. -/
def crowded : Text :=
  "\x7b\"axiom\": \"XF\", \"iterations\": 4, \"rules\": [[\"X\", \"XXXXXXXXXX\"]]\x7d"

/-- The scene of this text. -/
def crowdedScene : Scene :=
  plainScene "XF" 4 [⟨"X", "XXXXXXXXXX"⟩]

/-- The table of its rules. -/
def crowdedTable : RuleTable :=
  (RuleTable.ofRules crowdedScene.rules).1

/-- Buds in a row. -/
def buds (count : Nat) : Text :=
  List.replicate count (CodePoint.ofChar 'X')

theorem rewrite_buds (count : Nat) : crowdedTable.rewrite (buds count) = buds (10 * count) := by
  have himage : crowdedTable.image (CodePoint.ofChar 'X') = buds 10 := by decide
  induction count with
  | zero => rfl
  | succ count ih =>
      change crowdedTable.image _ ++ crowdedTable.rewrite (buds count) = _
      rw [himage, ih, buds, buds, buds, List.replicate_append_replicate, Nat.mul_succ, Nat.add_comm]

theorem generation_crowded (count start : Nat) :
    crowdedTable.generation count (buds start ++ "F") = buds (10 ^ count * start) ++ "F" := by
  have hforward : crowdedTable.rewrite "F" = "F" := by decide
  induction count generalizing start with
  | zero =>
      rw [Nat.pow_zero, Nat.one_mul]
      rfl
  | succ count ih =>
      rw [RuleTable.generation, RuleTable.rewrite_append, rewrite_buds, hforward, ih, Nat.pow_succ,
        Nat.mul_assoc]

theorem firstLong_crowded : crowdedTable.FirstLong 4 "XF" 4 := by
  have hlength : ∀ count, (crowdedTable.generation count "XF").length = 10 ^ count + 1 := by
    intro count
    have hword := generation_crowded count 1
    rw [Nat.mul_one] at hword
    change (crowdedTable.generation count (buds 1 ++ "F")).length = _
    rw [hword, List.length_append, buds, List.length_replicate]
    rfl
  refine ⟨le_rfl, ?_, fun count hcount => ?_⟩
  · rw [hlength]
    decide
  · have hbound := Nat.pow_le_pow_right (n := 10) (by decide) (Nat.le_of_lt_succ hcount)
    rw [hlength, sampleLimit]
    omega

theorem mem_buds {count : Nat} {point : CodePoint} (hpoint : point ∈ buds count) :
    point ∈ Text.ofString "FX" ∧ point ≠ CodePoint.ofChar 'F' := by
  rw [List.eq_of_mem_replicate hpoint]
  decide

theorem exists_draw_crowded :
    ∃ segments, (draw crowdedScene.setup crowdedScene.rules crowdedScene.start
        crowdedScene.iterations).outcome = .ok segments ∧ segments ≠ [] ∧
      (drawingDocument materialDocument crowdedScene.name segments).Encodable := by
  have hlast : crowdedTable.generation 4 "XF" = buds 10000 ++ "F" := generation_crowded 4 1
  refine exists_draw_plain (fun point hpoint => ?_) ?_
  · change point ∈ crowdedTable.generation 4 "XF" at hpoint
    rw [hlast] at hpoint
    rcases List.mem_append.mp hpoint with hbud | hforward
    · exact (mem_buds hbud).1
    · exact List.mem_of_mem_take (i := 1) hforward
  · change _ ∈ crowdedTable.generation 4 "XF"
    rw [hlast]
    exact List.mem_append_right _ List.mem_cons_self

/-- The step forward comes after the cut. -/
theorem take_crowded : (crowdedTable.generation 4 "XF").take sampleLimit = buds sampleLimit := by
  have hlast : crowdedTable.generation 4 "XF" = buds sampleLimit ++ "F" := generation_crowded 4 1
  rw [hlast]
  exact List.take_left' List.length_replicate

theorem crowded_not_valid :
    ¬ ∃ tokens, tokenize (Session.sampledWord crowdedScene) = .ok tokens ∧
      Nested (tokens.map Token.command) ∧ forward ∈ tokens.map Token.command := by
  rintro ⟨tokens, htokens, -, hforward⟩
  have hsample : Session.sampledWord crowdedScene = buds sampleLimit := by
    rw [Session.sampledWord]
    change (crowdedTable.sample 4 "XF").word = buds sampleLimit
    rw [RuleTable.sample_of_firstLong firstLong_crowded, take_crowded]
  obtain ⟨others, hothers, -, hcommand⟩ :=
    exists_tokenize_plain fun point hpoint => (@mem_buds sampleLimit point hpoint).1
  rw [hsample, hothers] at htokens
  obtain rfl := Except.ok.inj htokens
  exact (mem_buds (hcommand.mp hforward)).2 rfl

/-- A store with the file of this scene. -/
def crowdedStore : Store :=
  sceneStore (crowded.flatMap Utf8.encodePoint)

theorem sceneAt_crowdedStore :
    Session.sceneAt .usual crowdedStore "scene.json" = .ok crowdedScene := by
  decide +kernel

/-- A scene that is drawn with segments is valid if none of its generations is too long. Otherwise
it is valid exactly if the beginning of the first such generation can be read, is nested and has a
step forward. The beginning of the last generation can be read, and it is nested unless the cut
leaves a group open. -/
theorem validate_of_generate {host : Host} {store : Store} {checking drawing : List Text}
    {path output name : Text} {verbose telling : Bool} {bytes : List UInt8}
    {segments : List (Segment (Option Text))}
    (hchecking : Invocation.ofTexts checking = .ok ⟨.validate path, verbose⟩)
    (hdrawing : Invocation.ofTexts drawing = .ok ⟨.generate path (some output), telling⟩)
    (hexited : (runCommandLine host store drawing).ending = .exited 0)
    (hread : (runCommandLine host store drawing).store.read output = .ok bytes)
    (hbytes : Document.ofBytes host.nesting bytes =
      .ok (drawingDocument materialDocument name segments))
    (hne : segments ≠ []) :
    ∃ scene, Session.sceneAt host store path = .ok scene ∧
      let table := (RuleTable.ofRules scene.rules).1
      let checked := runCommandLine host store checking
      (table.AllShort scene.iterations scene.start ∧ checked.ending = .exited 0) ∨
      ∃ first, table.FirstLong scene.iterations scene.start first ∧
        let beginning := (table.generation first scene.start).take sampleLimit
        (checked.ending = .exited 0 ↔ ∃ tokens, tokenize beginning = .ok tokens ∧
          Nested (tokens.map Token.command) ∧ forward ∈ tokens.map Token.command) ∧
        (first = scene.iterations → ∃ tokens, tokenize beginning = .ok tokens ∧
          (ShieldsGroups (fun _ => False) beginning → Nested (tokens.map Token.command))) := by
  obtain ⟨-, hstore⟩ := @runCommandLine_endsWith host store _ _ hdrawing
  rw [runCommandLine_exited_zero hdrawing] at hexited
  rw [hstore] at hread
  obtain ⟨scene, drawn, hscene, hname, hdraw, hsame⟩ :=
    Session.exists_draw_of_generate hexited hread hbytes
  obtain ⟨tokens, htokens, hsegments⟩ := draw_eq_ok.mp hdraw
  have hwhole := (Session.exists_segments_iff (Session.isInf_angle_of_sceneAt hscene) htokens).mp
    ⟨drawn, hsegments, drawingDocument_ne_nil hsame hne⟩
  refine ⟨scene, hscene, ?_⟩
  intro table checked
  have hvalid : checked.ending = .exited 0 ↔ Session.validatedAt host store path = .ok () :=
    runCommandLine_exited_zero hchecking
  rw [Session.validatedAt_eq_ok_iff hscene (Host.shows_of_encodable hname), Session.sampledWord]
    at hvalid
  by_cases hshort : table.AllShort scene.iterations scene.start
  · rw [RuleTable.sample_of_allShort hshort] at hvalid
    exact .inl ⟨hshort, hvalid.mpr ⟨tokens, htokens, hwhole⟩⟩
  · obtain ⟨first, hfirst⟩ := RuleTable.exists_firstLong hshort
    rw [RuleTable.sample_of_firstLong hfirst] at hvalid
    refine .inr ⟨first, hfirst, hvalid, ?_⟩
    rintro rfl
    obtain ⟨beginning, hbeginning, hnested⟩ := exists_tokenize_take htokens sampleLimit
    exact ⟨beginning, hbeginning, fun hclosed => hnested hclosed hwhole.1⟩

/-- Both branches of the theorem are met: no generation of the growing scene is too long, and the
last one of the crowded scene is. -/
theorem validate_of_generate_grown :
    let checking : List Text := ["validate", "scene.json"]
    let drawing : List Text := ["generate", "scene.json", "drawn.json"]
    let store := sceneStore ((grown "FX").flatMap Utf8.encodePoint)
    let beginning := (crowdedTable.generation 4 "XF").take sampleLimit
    Invocation.ofTexts checking = .ok ⟨.validate "scene.json", false⟩ ∧
      Invocation.ofTexts drawing = .ok ⟨.generate "scene.json" (some "drawn.json"), false⟩ ∧
      (runCommandLine .usual store drawing).ending = .exited 0 ∧
      (runCommandLine .usual store checking).ending = .exited 0 ∧
      (runCommandLine .usual crowdedStore drawing).ending = .exited 0 ∧
      ((runCommandLine .usual crowdedStore checking).ending = .exited 0 ↔
        ∃ tokens, tokenize beginning = .ok tokens ∧
          Nested (tokens.map Token.command) ∧ forward ∈ tokens.map Token.command) ∧
      ∃ tokens, tokenize beginning = .ok tokens ∧ Nested (tokens.map Token.command) := by
  intro checking drawing store beginning
  have hchecking : Invocation.ofTexts checking = .ok ⟨.validate "scene.json", false⟩ := by
    decide +kernel
  have hdrawing : Invocation.ofTexts drawing =
      .ok ⟨.generate "scene.json" (some "drawn.json"), false⟩ := by decide +kernel
  refine ⟨hchecking, hdrawing, ?_⟩
  rw [← and_assoc]
  constructor
  · have hscene : Session.sceneAt .usual store "scene.json" = .ok (grownScene "FX") := by
      decide +kernel
    have hshort : (RuleTable.ofRules (grownScene "FX").rules).1.AllShort 2 "X" := by decide +kernel
    obtain ⟨segments, hdraw, hne, hencodable⟩ :=
      @exists_draw_plain "X" 2 [⟨"X", "FX"⟩] (by decide +kernel) (by decide +kernel)
    obtain ⟨hexited, hread, hbytes⟩ := @runCommandLine_of_saves .usual store _ _ _ _ hdrawing
      (.drawing hscene hdraw) (by decide +kernel) hencodable
    obtain ⟨scene, hsame, hvalid⟩ :=
      validate_of_generate hchecking hdrawing hexited hread hbytes hne
    obtain rfl := Except.ok.inj (hscene.symm.trans hsame)
    refine ⟨hexited, ?_⟩
    rcases hvalid with ⟨-, hvalid⟩ | ⟨first, hfirst, -⟩
    · exact hvalid
    · exact absurd hfirst.long (not_lt.mpr (hshort first hfirst.reached))
  · obtain ⟨segments, hdraw, hne, hencodable⟩ := exists_draw_crowded
    obtain ⟨hexited, hread, hbytes⟩ := @runCommandLine_of_saves .usual crowdedStore _ _ _ _ hdrawing
      (.drawing sceneAt_crowdedStore hdraw) (by decide +kernel) hencodable
    obtain ⟨scene, hsame, hvalid⟩ :=
      validate_of_generate hchecking hdrawing hexited hread hbytes hne
    obtain rfl := Except.ok.inj (sceneAt_crowdedStore.symm.trans hsame)
    refine ⟨hexited, ?_⟩
    rcases hvalid with ⟨hshort, -⟩ | ⟨first, hfirst, hvalid, hlast⟩
    · exact absurd firstLong_crowded.long (not_lt.mpr (hshort 4 le_rfl))
    · obtain rfl := hfirst.unique firstLong_crowded
      obtain ⟨tokens, htokens, hnested⟩ := hlast rfl
      have hopen : CodePoint.ofChar '(' ∉ (crowdedTable.generation 4 "XF").take sampleLimit := by
        rw [take_crowded]
        exact fun hopen => absurd (List.eq_of_mem_replicate hopen) (by decide)
      exact ⟨hvalid, tokens, htokens, hnested (shieldsGroups_of_notMem hopen)⟩

/-- The crowded scene is drawn with a segment and saved, but it is not valid: the step forward comes
after the cut. -/
theorem validate_refuses_crowded :
    let drawn := runCommandLine .usual crowdedStore ["generate", "scene.json", "drawn.json"]
    drawn.ending = .exited 0 ∧
    (∃ bytes segments, segments ≠ [] ∧ drawn.store.read "drawn.json" = .ok bytes ∧
      Document.ofBytes Host.usual.nesting bytes =
        .ok (drawingDocument materialDocument "L-System" segments)) ∧
    (runCommandLine .usual crowdedStore ["validate", "scene.json"]).ending ≠ .exited 0 := by
  have hchecking : Invocation.ofTexts ["validate", "scene.json"] =
      .ok ⟨.validate "scene.json", false⟩ := by decide +kernel
  have hdrawing : Invocation.ofTexts ["generate", "scene.json", "drawn.json"] =
      .ok ⟨.generate "scene.json" (some "drawn.json"), false⟩ := by decide +kernel
  obtain ⟨segments, hdraw, hne, hencodable⟩ := exists_draw_crowded
  obtain ⟨hending, hread, hbytes⟩ := @runCommandLine_of_saves .usual crowdedStore _ _ _ _ hdrawing
    (.drawing sceneAt_crowdedStore hdraw) (by decide +kernel) hencodable
  refine ⟨hending, ⟨_, segments, hne, hread, hbytes⟩, ?_⟩
  rw [ne_eq, runCommandLine_exited_zero hchecking, Session.performedAt,
    Session.validatedAt_eq_ok_iff sceneAt_crowdedStore
      (Host.shows_of_encodable (show Text.Encodable "L-System" by decide))]
  exact crowded_not_valid

end Lindenmayer
