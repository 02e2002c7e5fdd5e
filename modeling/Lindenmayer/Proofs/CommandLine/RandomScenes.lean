import Lindenmayer.Proofs.CommandLine.Arguments
import Lindenmayer.Proofs.CommandLine.Files

/-!
# Random scenes on the command line

Whatever is drawn, the document of a random scene is kept by files, and the commands that read it
succeed. The command that writes it succeeds wherever a file can be written.
-/

namespace Lindenmayer

/-- A material as documents name it. -/
def namedMaterial (material : Option Text) : Document :=
  material.elim .null .string

/-- What a document is good for that describes a scene without flaws. -/
structure Usable (document : Document) (scene : Scene) : Prop where
  /-- The document is read as the scene, and nothing is to be told about it. -/
  reads : Scene.ofDocument document = ⟨[], .ok scene⟩
  /-- No generation of the scene has a word that cannot be read or drawn. -/
  draws : ∀ count : ℕ, ∃ segments,
    (draw scene.setup scene.rules scene.start count).outcome = .ok segments
  keeps : Session.Keeps document document.toBytes.1
  /-- Every host has room for the document. -/
  fits : ∀ host : Host, document.nesting ≤ host.nesting
  /-- From a file with the document, the segments of its scene are generated, at least one. The
  output has the name of the scene and the segments in order. -/
  generates : ∀ (host : Host) (store : Store) (arguments : List Text) (path output : Text)
    (verbose : Bool),
    Invocation.ofTexts arguments = .ok ⟨.generate path (some output), verbose⟩ →
    store.read path = .ok document.toBytes.1 → store.Writable output →
    ∃ (segments : List (Segment (Option Text))) (items : List Document) (bytes : List UInt8),
      segments ≠ [] ∧
      (draw scene.setup scene.rules scene.start scene.iterations).outcome = .ok segments ∧
      (runCommandLine host store arguments).ending = .exited 0 ∧
      (runCommandLine host store arguments).store.read output = .ok bytes ∧
      Document.ofBytes host.nesting bytes =
        .ok (.object [("name", .string scene.name), ("segments", .array items)]) ∧
      items ≠ [] ∧ List.Forall₂ (Document.IsSegment namedMaterial) segments items
  validates : ∀ (host : Host) (store : Store) (arguments : List Text) (path : Text)
    (verbose : Bool), Invocation.ofTexts arguments = .ok ⟨.validate path, verbose⟩ →
    store.read path = .ok document.toBytes.1 →
    (runCommandLine host store arguments).ending = .exited 0

namespace RandomScene

variable {document : Document} {scene : Scene}

theorem Draws.fits (hdraws : Draws document scene) (host : Host) :
    document.nesting ≤ host.nesting :=
  Document.fits_of_shallow (hdraws.nesting_le.trans (by decide)) host

theorem Draws.keeps (hdraws : Draws document scene) :
    Session.Keeps document document.toBytes.1 :=
  Session.keeps_of_encodable hdraws.regular hdraws.encodable

theorem Draws.sceneAt (hdraws : Draws document scene) {host : Host} {store : Store} {path : Text}
    (hread : store.read path = .ok document.toBytes.1) :
    Session.sceneAt host store path = .ok scene := by
  have hdocument : Session.documentAt host store path = .ok document :=
    Session.documentAt_eq_ok.mpr ⟨_, hread,
      Document.ofBytes_toBytes hdraws.regular hdraws.encodable (hdraws.fits host)⟩
  rw [Session.sceneAt, hdocument]
  dsimp only [Except.bind]
  rw [hdraws.ofDocument, Except.mapError_ok]

theorem isSegment_materialDocument {segment : Segment (Option Text)} {item : Document}
    (hitem : Document.IsSegment materialDocument segment item) :
    Document.IsSegment namedMaterial segment item := by
  have hmaterial : materialDocument segment.material = namedMaterial segment.material := by
    cases segment.material <;> rfl
  rwa [Document.IsSegment, hmaterial] at hitem

/-- What is generated from a file of the document is a drawing of its scene. -/
theorem Draws.generates (hdraws : Draws document scene) {host : Host} {store : Store}
    {arguments : List Text} {path output : Text} {verbose : Bool}
    (harguments : Invocation.ofTexts arguments = .ok ⟨.generate path (some output), verbose⟩)
    (hread : store.read path = .ok document.toBytes.1) (hwritable : store.Writable output) :
    ∃ segments, segments ≠ [] ∧
      (draw scene.setup scene.rules scene.start scene.iterations).outcome = .ok segments ∧
      (runCommandLine host store arguments).ending = .exited 0 ∧
      (runCommandLine host store arguments).store.read output =
        .ok (drawingDocument materialDocument scene.name segments).toBytes.1 ∧
      Document.ofBytes host.nesting
          (drawingDocument materialDocument scene.name segments).toBytes.1 =
        .ok (drawingDocument materialDocument scene.name segments) := by
  obtain ⟨segments, hsegments, hne, hmaterials⟩ := hdraws.exists_draw scene.iterations
  have hencodable : (drawingDocument materialDocument scene.name segments).Encodable :=
    Document.encodable_drawing.mpr ⟨hdraws.encodable_name, hmaterials⟩
  obtain ⟨hending, hwritten, hbytes⟩ := @runCommandLine_of_saves host store _ _ _ _ harguments
    (.drawing (hdraws.sceneAt hread) hsegments) hwritable hencodable
  exact ⟨segments, hne hdraws.iterations_pos, hsegments, hending, hwritten, hbytes⟩

theorem Draws.usable (hdraws : Draws document scene) : Usable document scene where
  reads := hdraws.ofDocument
  draws count := by
    obtain ⟨segments, hsegments, -⟩ := hdraws.exists_draw count
    exact ⟨segments, hsegments⟩
  keeps := hdraws.keeps
  fits := hdraws.fits
  generates host store arguments path output verbose harguments hread hwritable := by
    obtain ⟨segments, hne, hsegments, hending, hwritten, hbytes⟩ :=
      @Draws.generates _ _ hdraws host store _ _ _ _ harguments hread hwritable
    have hdrawing := Document.isDrawing materialDocument scene.name segments
    generalize drawingDocument materialDocument scene.name segments = drawing
      at hwritten hbytes hdrawing
    obtain ⟨hitems⟩ := hdrawing
    refine ⟨segments, _, _, hne, hsegments, hending, hwritten, hbytes, fun hnone => ?_,
      hitems.imp fun _ _ => isSegment_materialDocument⟩
    rw [hnone, List.forall₂_nil_right_iff] at hitems
    exact hne hitems
  validates host store arguments path verbose harguments hread := by
    rw [runCommandLine_exited_zero harguments, Session.performedAt,
      Session.validatedAt_eq_ok (hdraws.sceneAt hread)
        (Host.shows_of_encodable hdraws.encodable_name)]
    exact hdraws.exists_sample

/-- Random scenes pass their check and can be used whatever is drawn, and the command for them
writes the one of its seed. The plain command lines of the three commands ask for what they say. -/
theorem random_scenes_usable :
    (∀ {σ : Type} (source : Source σ) (state : σ),
      RandomScene.checked source state = ⟨[], .ok (RandomScene.document source state).1⟩ ∧
      ∃ scene, Usable (RandomScene.document source state).1 scene) ∧
    (∀ (host : Host) (store : Store) (arguments : List Text) (output : Text) (seed : ℤ)
      (verbose : Bool),
      Invocation.ofTexts arguments = .ok ⟨.random output (some seed), verbose⟩ →
      store.Writable output →
      (runCommandLine host store arguments).ending = .exited 0 ∧
      (runCommandLine host store arguments).store.read output =
        .ok (RandomScene.document Twister.source (Twister.ofSeed seed)).1.toBytes.1 ∧
      ∀ session : Session, session.store = (runCommandLine host store arguments).store →
        (Session.load host output).run.run session =
          (.ok (RandomScene.document Twister.source (Twister.ofSeed seed)).1, session)) ∧
    ∀ path output : Text, path.head? ≠ some (CodePoint.ofChar '-') →
      output.head? ≠ some (CodePoint.ofChar '-') →
      Invocation.ofTexts ["generate", path, output] =
        .ok ⟨.generate path (some output), false⟩ ∧
      Invocation.ofTexts ["validate", path] = .ok ⟨.validate path, false⟩ ∧
      ∀ seed : ℤ, seed.natAbs < 10 ^ integerDigitLimit →
        Invocation.ofTexts ["random", output, "--seed", Text.ofInt seed] =
          .ok ⟨.random output (some seed), false⟩ := by
  refine ⟨fun source state => ⟨checked_eq source state, ?_⟩, ?_,
    fun path output hpath houtput => ?_⟩
  · obtain ⟨scene, hdraws⟩ := draws_document source state
    exact ⟨scene, hdraws.usable⟩
  · intro host store arguments output seed verbose harguments hwritable
    obtain ⟨scene, hdraws⟩ := draws_document Twister.source (Twister.ofSeed seed)
    -- The command saves the document of the twister with its seed.
    obtain ⟨hending, hread, -⟩ := @runCommandLine_of_saves host store _ _ _ _ harguments
      (.random output (some seed)) hwritable hdraws.encodable
    refine ⟨hending, hread, fun session hsession => ?_⟩
    refine hdraws.keeps.loads host session output (hdraws.fits host) ?_
    rw [hsession]
    exact hread
  · exact ⟨Invocation.ofTexts_generate hpath houtput, Invocation.ofTexts_validate hpath,
      fun seed hseed => Invocation.ofTexts_random houtput hseed⟩

/-- The source of the least draws. -/
def leastSource : Source Unit :=
  ⟨fun state => (0, state), fun _ hbound state => (⟨0, hbound⟩, state)⟩

/-- A store with one file, the document of the least draws. -/
def leastStore : Store :=
  ⟨["home"], [(["home", "least.json"], .file (RandomScene.document leastSource ()).1.toBytes.1)]⟩

theorem random_scenes_usable_least :
    leastStore.read "least.json" = .ok (RandomScene.document leastSource ()).1.toBytes.1 ∧
      leastStore.Writable "made/drawn.json" ∧
      (runCommandLine .usual leastStore ["generate", "least.json", "made/drawn.json"]).ending =
        .exited 0 ∧
      (runCommandLine .usual leastStore ["validate", "least.json"]).ending = .exited 0 ∧
      (runCommandLine .usual leastStore
        ["-v", "random", "made/drawn.json", "--seed", "-7"]).ending = .exited 0 := by
  have hread : leastStore.read "least.json" =
      .ok (RandomScene.document leastSource ()).1.toBytes.1 := by rfl
  have hwritable : leastStore.Writable "made/drawn.json" := by rfl
  obtain ⟨scene, husable⟩ := (random_scenes_usable.1 leastSource ()).2
  refine ⟨hread, hwritable, ?_, ?_, ?_⟩
  · obtain ⟨segments, items, bytes, -, -, hending, -⟩ := husable.generates .usual leastStore
      ["generate", "least.json", "made/drawn.json"] _ _ false (by rfl) hread hwritable
    exact hending
  · exact husable.validates .usual leastStore ["validate", "least.json"] _ false (by rfl) hread
  · exact (random_scenes_usable.2.1 .usual leastStore
      ["-v", "random", "made/drawn.json", "--seed", "-7"] _ (-7) true (by rfl) hwritable).1

end RandomScene

end Lindenmayer
