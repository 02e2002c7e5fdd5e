import Lindenmayer.Proofs.Document.Reading
import Lindenmayer.Proofs.Sampling.Growth
import Lindenmayer.Proofs.Scene.Reading

/-!
# Random scenes

Every document that is drawn at random describes a scene without a reason for a notice, has an
encoded form, and has rules under which every generation can be drawn.
-/

namespace Lindenmayer

namespace RandomScene

variable {σ : Type}

/-- The start symbols of random scenes, with the rules that go with them. -/
inductive IsGrammar : CodePoint → List Rule → Prop where
  | stem {stem : Text} (hstem : Sprout stem) : IsGrammar 'F' [⟨"F", stem⟩]
  | bud {stem bud : Text} (hstem : Sprout stem) (hbud : Sprout bud) :
      IsGrammar 'X' [⟨"F", stem⟩, ⟨"X", bud⟩]

/-- The document of a random scene with the given draws. -/
def documentOf (angle : Document) (iterations : ℕ) (length : Float) (start : CodePoint)
    (rules : List Rule) : Document :=
  .object [("name", .string "Random L-System"), ("axiom", .string [start]),
    ("iterations", .integer iterations),
    ("rules", .array (rules.map fun given => rule given.key given.replacement)),
    ("turtle", turtle angle length)]

/-- The setup that a random scene describes. -/
def setupOf (angle length : Float) : Setup (Option Text) :=
  ⟨angle, 0.7, 0.9, [some "bark", some "leaf"], some "bark", ⟨0, 1, 0⟩, length, 0.1⟩

/-- The scene that is read from the document of a random one. -/
def sceneOf (angle : Float) (iterations : ℕ) (length : Float) (start : CodePoint)
    (rules : List Rule) : Scene :=
  ⟨"Random L-System", [start], iterations, rules, setupOf angle length⟩

/-- A document that can be drawn, and the scene that it describes. -/
inductive Draws : Document → Scene → Prop where
  | mk {angle : Document} {degrees length : Float} {iterations : ℕ} {start : CodePoint}
      {rules : List Rule} (hangle : angle ∈ angles) (hdegrees : Scene.IsNumber angle degrees)
      (hturn : (setupOf degrees length).CanTurn) (hlength : length ∈ lengths)
      (hiterations : 0 < iterations ∧ iterations ≤ 4) (hgrammar : IsGrammar start rules) :
      Draws (documentOf angle iterations length start rules)
        (sceneOf degrees iterations length start rules)

theorem exists_degrees {angle : Document} (hangle : angle ∈ angles) (length : Float) :
    ∃ degrees, Scene.IsNumber angle degrees ∧ (setupOf degrees length).CanTurn := by
  have hall : ∀ angle ∈ angles, ∃ degrees ∈ (Scene.asNumber [] angle).toOption,
      degrees.isInf = false ∧ (-degrees).isInf = false := by
    decide
  obtain ⟨degrees, hdegrees, hturn⟩ := hall angle hangle
  refine ⟨degrees, (@Scene.asNumber_eq_ok [] _ _).mp ?_, hturn⟩
  cases hread : Scene.asNumber [] angle with
  | error fault => rw [hread] at hdegrees; exact nomatch hdegrees
  | ok number =>
      rw [hread] at hdegrees
      exact congrArg Except.ok (Option.some.inj hdegrees)

theorem exists_grammar (source : Source σ) (state : σ) :
    ∃ start rules, IsGrammar start rules ∧ (grammar source state).1 =
      ([start], rules.map fun given => rule given.key given.replacement) := by
  rw [grammar]
  dsimp only
  split
  next =>
    have hlength := source.between_le (show 4 ≤ 10 by decide) (source.unit state).2
    have hshort := Int.ofNat_le.mpr (hlength.2.trans (show 10 ≤ 14 by decide))
    exact ⟨'X', [_, _], .bud (sprout_randomWord source usualBranching hshort _)
      (BudPart.sprout_draw source (source.between_le (show 3 ≤ 6 by decide) _).2 _), rfl⟩
  next =>
    have hlength := source.between_le (show 6 ≤ 14 by decide) (source.unit state).2
    have hshort := Int.ofNat_le.mpr hlength.2
    exact ⟨'F', [_], .stem (sprout_randomWord source usualBranching hshort _), rfl⟩

/-- Whatever the source, a document is drawn that describes a scene. -/
theorem draws_document (source : Source σ) (state : σ) :
    ∃ scene, Draws (document source state).1 scene := by
  -- These are the draws of the document in their order.
  let angle := source.pick angles (by decide) state
  let iterations := source.between 2 4 angle.2
  let length := source.pick lengths (by decide) iterations.2
  have hangle : angle.1 ∈ angles := source.pick_mem _ _
  have hiterations := source.between_le (show 2 ≤ 4 by decide) angle.2
  have hlength : length.1 ∈ lengths := source.pick_mem _ _
  obtain ⟨degrees, hdegrees, hturn⟩ := exists_degrees hangle length.1
  obtain ⟨start, rules, hgrammar, hdrawn⟩ := exists_grammar source length.2
  have hdocument : (document source state).1 =
      documentOf angle.1 iterations.1 length.1 start rules := by
    change Document.object [_, (_, .string (grammar source length.2).1.1), _,
      (_, .array (grammar source length.2).1.2), _] = _
    rw [hdrawn]
    rfl
  rw [hdocument]
  exact ⟨_, .mk hangle hdegrees hturn hlength
    ⟨(show 0 < 2 by decide).trans_le hiterations.1, hiterations.2⟩ hgrammar⟩

variable {start : CodePoint} {rules : List Rule} {given : Rule}

theorem IsGrammar.rule (hgrammar : IsGrammar start rules) (hgiven : given ∈ rules) :
    given.key ∈ (["F", "X"] : List Text) ∧ Sprout given.replacement := by
  cases hgrammar with
  | stem hstem =>
      obtain rfl := List.mem_singleton.mp hgiven
      exact ⟨List.mem_cons_self, hstem⟩
  | bud hstem hbud =>
      rcases List.mem_pair.mp hgiven with rfl | rfl
      · exact ⟨List.mem_cons_self, hstem⟩
      · exact ⟨.tail _ List.mem_cons_self, hbud⟩

theorem IsGrammar.symbols (hgrammar : IsGrammar start rules) :
    (RuleTable.ofRules rules).1.symbols ⊆ Text.ofString "FX" ∧
      CodePoint.ofChar 'F' ∈ (RuleTable.ofRules rules).1.symbols ∧
      start ∈ (RuleTable.ofRules rules).1.symbols := by
  cases hgrammar with
  | stem =>
      change [CodePoint.ofChar 'F'] ⊆ Text.ofString "FX" ∧ _ ∈ [CodePoint.ofChar 'F'] ∧
        _ ∈ [CodePoint.ofChar 'F']
      decide
  | bud =>
      change Text.ofString "FX" ⊆ Text.ofString "FX" ∧ _ ∈ Text.ofString "FX" ∧
        _ ∈ Text.ofString "FX"
      decide

/-- The table of the rules makes every generation one that can be drawn. -/
theorem IsGrammar.sprouts (hgrammar : IsGrammar start rules) :
    (RuleTable.ofRules rules).1.Sprouts where
  symbols := hgrammar.symbols.1
  forward := hgrammar.symbols.2.1
  sprout symbol replacement hreplacement := by
    have hentries : (RuleTable.ofRules rules).1.entries =
        rules.map fun given => (given.key.headD start, given.replacement) := by
      cases hgrammar <;> rfl
    have hentry := RuleTable.mem_entries_of_lookup hreplacement
    rw [hentries, List.mem_map] at hentry
    obtain ⟨given, hgiven, heq⟩ := hentry
    rw [← (Prod.mk.inj heq).2]
    exact (hgrammar.rule hgiven).2

/-- Rules whose keys have one symbol are kept as they are, and nothing is told about them. -/
theorem IsGrammar.kept (hgrammar : IsGrammar start rules) :
    rules.map Rule.cut = rules ∧ rules.flatMap Rule.notices = [] := by
  cases hgrammar <;> exact ⟨rfl, rfl⟩

theorem IsGrammar.isRule (hgrammar : IsGrammar start rules) :
    List.Forall₂ Scene.IsRule (rules.map fun given => RandomScene.rule given.key given.replacement)
      rules := by
  rw [List.forall₂_map_left_iff, List.forall₂_same]
  have hkeys : ∀ key ∈ (["F", "X"] : List Text), key ≠ [] := by decide
  intro given hgiven
  exact .object (hkeys _ (hgrammar.rule hgiven).1) rfl (.inl rfl)

theorem length_usable {length : Float} (hlength : length ∈ lengths) :
    Scene.IsNumber (.number length) length ∧ 0 < length := by
  have hall : ∀ length ∈ lengths, length.isFinite = true ∧ 0 < length := by decide
  exact ⟨.finite (hall length hlength).1, (hall length hlength).2⟩

variable {document : Document} {scene : Scene}

/-- The turtle of a random scene has the setup that is meant. -/
theorem describes_turtle {angle : Document} {degrees length : Float}
    (hdegrees : Scene.IsNumber angle degrees) (hlength : length ∈ lengths) :
    ∃ members, turtle angle length = .object members ∧
      Scene.DescribesSetup members (setupOf degrees length) := by
  have hzero : Scene.IsNumber (.integer 0) 0 := by
    rw [← @Scene.asNumber_eq_ok []]
    decide
  have hone : Scene.IsNumber (.integer 1) 1 := by
    rw [← @Scene.asNumber_eq_ok []]
    decide
  have hfinite : ∀ number : Float, number.isFinite = true →
      Scene.IsNumber (.number number) number :=
    fun _ hnumber => .finite hnumber
  obtain ⟨hnumber, hpos⟩ := length_usable hlength
  exact ⟨_, rfl,
    { angle := ⟨angle, .inl rfl, hdegrees⟩
      length := ⟨_, .inl rfl, hnumber⟩
      width := ⟨_, .inl rfl, hfinite 0.1 (by decide)⟩
      widthScale := ⟨_, .inl rfl, hfinite 0.7 (by decide)⟩
      lengthScale := ⟨_, .inl rfl, hfinite 0.9 (by decide)⟩
      length_pos := hpos
      width_pos := show (0 : Float) < 0.1 by decide
      widthScale_pos := show (0 : Float) < 0.7 by decide
      lengthScale_pos := show (0 : Float) < 0.9 by decide
      heading := ⟨_, .inl rfl, _, _, _, rfl, hzero, hone, hzero⟩
      heading_ne_zero := show (Vec3.normalize ⟨0, 1, 0⟩ == Vec3.origin) = false by decide +kernel
      materials := ⟨["bark", "leaf"], .inl rfl, rfl⟩
      defaultMaterial := .inl rfl }⟩

/-- A random document is read as its scene, and there is nothing to be told about its rules. -/
theorem Draws.ofDocument (hdraws : Draws document scene) :
    Scene.ofDocument document = ⟨[], .ok scene⟩ := by
  cases hdraws with
  | @mk angle degrees length iterations start rules hangle hdegrees hturn hlength hiterations
      hgrammar =>
    obtain ⟨turtle, hturtle, hsetup⟩ := describes_turtle hdegrees hlength
    have hscene : Scene.DescribesScene
        [("name", .string "Random L-System"), ("axiom", .string [start]),
          ("iterations", .integer iterations),
          ("rules", .array (rules.map fun given => rule given.key given.replacement)),
          ("turtle", .object turtle)]
        (sceneOf degrees iterations length start rules) :=
      { name := .inl rfl
        start := .inl rfl
        start_ne_nil := List.cons_ne_nil _ _
        iterations := .inl rfl
        iterations_le := hiterations.2.trans (by decide)
        rules := ⟨_, rules, .inl rfl, hgrammar.isRule, hgrammar.kept.1.symm⟩
        setup := ⟨turtle, .inl rfl, hsetup⟩ }
    have hnotices := Scene.notices_ofDocument hscene (.inl rfl) hgrammar.isRule
    have houtcome := Scene.ofDocument_eq_ok.mpr ⟨_, rfl, hscene⟩
    rw [hgrammar.kept.2] at hnotices
    rw [documentOf, hturtle]
    exact (Report.mk.injEq ..).mpr ⟨hnotices, houtcome⟩

/-- Whatever the source, the document that is drawn passes its check, and nothing is told. -/
theorem checked_eq (source : Source σ) (state : σ) :
    checked source state = ⟨[], .ok (RandomScene.document source state).1⟩ := by
  obtain ⟨scene, hdraws⟩ := draws_document source state
  rw [checked]
  dsimp only
  rw [hdraws.ofDocument]
  rfl

theorem regular_rule (key replacement : Text) : (rule key replacement).Regular := by
  have hnames : (["key", "replacement"] : List Text).Nodup := by decide
  refine .object hnames ?_
  simp only [List.forall_mem_cons, List.not_mem_nil, false_imp_iff, implies_true, and_true]
  exact ⟨.string key, .string replacement⟩

theorem regular_angle {angle : Document} (hangle : angle ∈ angles) : angle.Regular := by
  revert angle
  simp only [angles, List.forall_mem_cons, List.not_mem_nil, false_imp_iff, implies_true, and_true]
  exact ⟨.small (by decide), .small (by decide), .number _, .small (by decide), .small (by decide),
    .small (by decide), .small (by decide), .small (by decide), .small (by decide)⟩

theorem regular_turtle {angle : Document} (hangle : angle ∈ angles) (length : Float) :
    (turtle angle length).Regular := by
  have hnames : (["angle", "length", "width", "width_scale", "length_scale", "heading",
      "materials", "default_material"] : List Text).Nodup := by
    decide
  refine .object hnames ?_
  simp only [List.forall_mem_cons, List.not_mem_nil, false_imp_iff, implies_true, and_true]
  refine ⟨regular_angle hangle, .number _, .number _, .number _, .number _, .array ?_, .array ?_,
    .string _⟩
  · simp only [List.forall_mem_cons, List.not_mem_nil, false_imp_iff, implies_true, and_true]
    exact ⟨.small (by decide), .small (by decide), .small (by decide)⟩
  · simp only [List.forall_mem_cons, List.not_mem_nil, false_imp_iff, implies_true, and_true]
    exact ⟨.string _, .string _⟩

/-- A random document is one that a text can stand for. -/
theorem Draws.regular (hdraws : Draws document scene) : document.Regular := by
  cases hdraws with
  | @mk angle degrees length iterations start rules hangle hdegrees hturn hlength hiterations
      hgrammar =>
    have hnames : (["name", "axiom", "iterations", "rules", "turtle"] : List Text).Nodup := by
      decide
    refine .object hnames ?_
    simp only [List.forall_mem_cons, List.not_mem_nil, false_imp_iff, implies_true, and_true]
    refine ⟨.string _, .string _, .small ?_, .array ?_, regular_turtle hangle length⟩
    · rw [Int.natAbs_natCast]
      exact hiterations.2.trans_lt (by decide)
    · exact List.forall_mem_map.mpr fun given _ => regular_rule given.key given.replacement

theorem nesting_turtle_le {angle : Document} (hangle : angle ∈ angles) (length : Float) :
    (turtle angle length).nesting ≤ 2 := by
  have hangles : ∀ angle ∈ angles, angle.nesting ≤ 1 := by decide
  refine Document.nesting_object_le.mpr ?_
  simp only [List.forall_mem_cons, List.not_mem_nil, false_imp_iff, implies_true, and_true]
  exact ⟨hangles angle hangle, Nat.zero_le 1, Nat.zero_le 1, Nat.zero_le 1, Nat.zero_le 1, le_rfl,
    le_rfl, Nat.zero_le 1⟩

theorem Draws.nesting_le (hdraws : Draws document scene) : document.nesting ≤ 3 := by
  cases hdraws with
  | @mk angle degrees length iterations start rules hangle hdegrees hturn hlength hiterations
      hgrammar =>
    have hrule : ∀ given ∈ rules, (rule given.key given.replacement).nesting ≤ 1 :=
      fun _ _ => le_rfl
    refine Document.nesting_object_le.mpr ?_
    simp only [List.forall_mem_cons, List.not_mem_nil, false_imp_iff, implies_true, and_true]
    exact ⟨Nat.zero_le 2, Nat.zero_le 2, Nat.zero_le 2,
      Document.nesting_array_le.mpr (List.forall_mem_map.mpr hrule),
      nesting_turtle_le hangle length⟩

theorem encodable_shoot {word : Text} (hword : Shoot word) : word.Encodable := by
  have hall : (singles ++ leafChoice).Encodable := by decide
  exact fun point hpoint => hall point (hword.subset hpoint)

/-- All strings of a random document have an encoded form. -/
theorem Draws.encodable (hdraws : Draws document scene) : document.Encodable := by
  cases hdraws with
  | @mk angle degrees length iterations start rules hangle hdegrees hturn hlength hiterations
      hgrammar =>
    have hangles : ∀ angle ∈ angles, angle.Encodable := by decide
    have hkeys : ∀ key ∈ (["F", "X"] : List Text), key.Encodable := by decide
    have hstart : Text.Encodable [start] := by
      cases hgrammar <;> decide
    have hrules : ∀ given ∈ rules, (rule given.key given.replacement).Encodable := by
      intro given hgiven
      obtain ⟨hkey, hsprout⟩ := hgrammar.rule hgiven
      simp only [rule, Document.encodable_object, List.forall_mem_cons, Document.encodable_string]
      exact ⟨⟨by decide, hkeys _ hkey⟩, ⟨by decide, encodable_shoot hsprout.shoot⟩, nofun⟩
    have hturtle : (turtle angle length).Encodable := by
      simp only [turtle, Document.encodable_object, List.forall_mem_cons]
      exact ⟨⟨by decide, hangles angle hangle⟩, ⟨by decide, nofun⟩, by decide⟩
    simp only [documentOf, Document.encodable_object, List.forall_mem_cons,
      Document.encodable_string, Document.encodable_array, List.forall_mem_map]
    exact ⟨by decide, ⟨by decide, hstart⟩, ⟨by decide, nofun⟩, ⟨by decide, hrules⟩,
      ⟨by decide, hturtle⟩, nofun⟩

/-- Every generation of a random scene can be drawn in materials with an encoded form, and has
segments from the first one on. -/
theorem Draws.exists_draw (hdraws : Draws document scene) (count : ℕ) :
    ∃ segments, (draw scene.setup scene.rules scene.start count).outcome = .ok segments ∧
      (0 < count → segments ≠ []) ∧
      ∀ segment ∈ segments, (materialDocument segment.material).Encodable := by
  cases hdraws with
  | @mk angle degrees length iterations start rules hangle hdegrees hturn hlength hiterations
      hgrammar =>
    obtain ⟨tokens, segments, htokens, hsegments, hforward⟩ :=
      hgrammar.sprouts.exists_interpret hgrammar.symbols.2.2 hturn count
        ((RuleTable.ofRules rules).1.generation count [start]).length
    rw [List.take_length] at htokens hforward
    refine ⟨segments, draw_eq_ok.mpr ⟨tokens, htokens, hsegments⟩, fun hcount => hforward ?_, ?_⟩
    · obtain ⟨before, rfl⟩ := Nat.exists_eq_succ_of_ne_zero hcount.ne'
      exact List.mem_of_mem_take
        (hgrammar.sprouts.forward_mem_generation hgrammar.symbols.2.2 before)
    · have hmaterials : ∀ material ∈ ([some "bark", some "bark", some "leaf"] :
          List (Option Text)), (materialDocument material).Encodable := by
        decide
      exact fun segment hsegment => hmaterials _ (material_interpret hsegments segment hsegment)

theorem Draws.encodable_name (hdraws : Draws document scene) : scene.name.Encodable := by
  cases hdraws
  exact show (Text.ofString "Random L-System").Encodable by decide

theorem Draws.iterations_pos (hdraws : Draws document scene) : 0 < scene.iterations := by
  cases hdraws with
  | mk _ _ _ _ hiterations _ => exact hiterations.1

theorem Draws.exists_sample (hdraws : Draws document scene) :
    ∃ tokens segments,
      tokenize ((RuleTable.ofRules scene.rules).1.sample scene.iterations scene.start).word =
        .ok tokens ∧
      (interpret scene.setup tokens).outcome = .ok segments ∧ segments ≠ [] := by
  cases hdraws with
  | mk hangle hdegrees hturn hlength hiterations hgrammar =>
    exact hgrammar.sprouts.exists_interpret_sample hgrammar.symbols.2.2 hturn hiterations

end RandomScene

end Lindenmayer
