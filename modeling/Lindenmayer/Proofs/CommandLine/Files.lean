import Lindenmayer.Main
import Lindenmayer.Proofs.CommandLine.Endings
import Lindenmayer.Proofs.Store.Frame

/-!
# Files after a command

A command saves its document as the last thing that can fail, so the files change only if it
succeeds. There is one exception: a document that cannot be encoded is written up to the string that
cannot be, and this beginning is left in the output.
-/

namespace Lindenmayer

/-- What a command on some files saves, and where, once nothing has failed before. -/
inductive Job.Saves (host : Host) (store : Store) : Job → Text → Document → Prop where
  | drawing {path output : Text} {scene : Scene} {segments : List (Segment (Option Text))}
      (hscene : Session.sceneAt host store path = .ok scene)
      (hdraw : (draw scene.setup scene.rules scene.start scene.iterations).outcome = .ok segments) :
      Saves host store (.generate path (some output)) output
        (drawingDocument materialDocument scene.name segments)
  | random (output : Text) (seed : Option Int) :
      Saves host store (.random output seed) output
        (RandomScene.document Twister.source (Twister.ofSeed (seed.getD host.entropy))).1

/-- The output of a command was opened, but its document could not be written to the end. -/
def Job.Spoils (host : Host) (store : Store) (job : Job) (completion : Completion) : Prop :=
  ∃ output document fault, job.Saves host store output document ∧ store.Writable output ∧
    ¬ document.Encodable ∧ completion.ending = .aborted (.unencodable fault) ∧
    completion.store.read output = .ok document.toBytes.1

theorem regular_materialDocument (material : Option Text) :
    (materialDocument material).Regular := by
  cases material with
  | none => exact .null
  | some text => exact .string text

theorem Job.Saves.regular {host : Host} {store : Store} {job : Job} {output : Text}
    {document : Document} (hsaves : job.Saves host store output document) :
    document.Regular := by
  cases hsaves with
  | drawing _ _ =>
      exact Document.regular_drawing _ fun segment _ => regular_materialDocument segment.material
  | random output seed =>
      obtain ⟨scene, hdraws⟩ :=
        RandomScene.draws_document Twister.source (Twister.ofSeed (seed.getD host.entropy))
      exact hdraws.regular

theorem Job.Saves.nesting_le {host : Host} {store : Store} {job : Job} {output : Text}
    {document : Document} (hsaves : job.Saves host store output document) :
    document.nesting ≤ 4 := by
  cases hsaves with
  | drawing _ _ =>
      refine Document.nesting_drawing_le _ fun segment _ => ?_
      cases segment.material <;> exact Nat.zero_le 1
  | random output seed =>
      obtain ⟨scene, hdraws⟩ :=
        RandomScene.draws_document Twister.source (Twister.ofSeed (seed.getD host.entropy))
      exact hdraws.nesting_le.trans (by decide)

theorem Job.Saves.outputOf? {host : Host} {store : Store} {job : Job} {output : Text}
    {document : Document} (hsaves : job.Saves host store output document) :
    Program.outputOf? job = some output := by
  cases hsaves <;> rfl

namespace Session

variable {host : Host} {store : Store} {job : Job} {output : Text} {document : Document}

/-- A command with something to save has the outcome of saving it and leaves what was written. -/
theorem performedAt_of_saves (hsaves : job.Saves host store output document) :
    performedAt host store job = savedAt store output document ∧
      storeAfter host store job = (store.write output document.toBytes.1).1 := by
  cases hsaves with
  | drawing hscene hdraw =>
      rw [performedAt, generatedAt, storeAfter, hscene]
      dsimp only [Except.bind, afterwards_ok]
      rw [hdraw]
      exact ⟨rfl, rfl⟩
  | random output seed => exact ⟨rfl, rfl⟩

/-- A command with nothing to save leaves the files alone, and it fails if it should have saved
something. -/
theorem performedAt_of_not_saves
    (hsaves : ∀ output document, ¬ job.Saves host store output document) :
    storeAfter host store job = store ∧
      (performedAt host store job = .ok () → Program.outputOf? job = none) := by
  cases job with
  | generate path output =>
      rw [performedAt, generatedAt, storeAfter]
      cases hscene : sceneAt host store path with
      | error failure =>
          refine ⟨rfl, fun hsuccess => ?_⟩
          cases hsuccess
      | ok scene =>
          dsimp only [Except.bind, afterwards_ok]
          cases hdraw : (draw scene.setup scene.rules scene.start scene.iterations).outcome with
          | error fault =>
              refine ⟨rfl, fun hsuccess => ?_⟩
              cases hsuccess
          | ok segments =>
              cases output with
              | none =>
                  refine ⟨rfl, fun hsuccess => ?_⟩
                  cases hsuccess
              | some output => exact absurd (.drawing hscene hdraw) (hsaves output _)
  | validate path => exact ⟨rfl, fun _ => rfl⟩
  | random output seed => exact absurd (.random output seed) (hsaves output _)

/-- Saving succeeds where a file can be written and the document can be encoded. -/
theorem savedAt_eq_ok :
    savedAt store output document = .ok () ↔ store.Writable output ∧ document.Encodable := by
  rw [savedAt, ← @Store.write_eq_none_iff store output document.toBytes.1]
  by_cases hencodable : document.Encodable
  · rw [Document.toBytes_of_encodable hencodable]
    cases (store.write output (document.fileText.flatMap Utf8.encodePoint)).2 <;> simp [hencodable]
  · obtain ⟨fault, hfault⟩ := Document.exists_toBytes_fault hencodable
    rw [hfault]
    cases (store.write output document.toBytes.1).2 <;> simp [hencodable]

/-- Saving that fails has written nothing, or it has written all that could be encoded. -/
theorem savedAt_eq_error {failure : Failure}
    (hfailure : savedAt store output document = .error failure) :
    (∃ fault, (store.write output document.toBytes.1).2 = some fault) ∨
      (store.write output document.toBytes.1).2 = none ∧ ¬ document.Encodable ∧
        ∃ fault, failure = .unencodable fault := by
  rw [savedAt] at hfailure
  cases hwrite : (store.write output document.toBytes.1).2 with
  | some fault => exact .inl ⟨fault, rfl⟩
  | none =>
      rw [hwrite] at hfailure
      cases hbytes : document.toBytes.2 with
      | none => simp [hbytes] at hfailure
      | some fault =>
          rw [hbytes] at hfailure
          refine .inr ⟨rfl, fun hencodable => ?_, fault, (Except.error.inj hfailure).symm⟩
          rw [Document.toBytes_of_encodable hencodable] at hbytes
          cases hbytes

/-- A command that saves a document and succeeds leaves it in the output. -/
theorem read_storeAfter_of_saves (hsaves : job.Saves host store output document)
    (houtcome : performedAt host store job = .ok ()) :
    (storeAfter host store job).read output = .ok document.toBytes.1 ∧
      Document.ofBytes host.nesting document.toBytes.1 = .ok document := by
  obtain ⟨hsaved, hleft⟩ := performedAt_of_saves hsaves
  rw [hsaved, savedAt_eq_ok] at houtcome
  obtain ⟨hwritable, hencodable⟩ := houtcome
  rw [hleft]
  exact ⟨Store.read_of_write (Prod.ext rfl (Store.write_eq_none_iff.mpr hwritable)),
    Document.ofBytes_toBytes hsaves.regular hencodable
      (Document.fits_of_shallow hsaves.nesting_le host)⟩

end Session

/-- A command that has something to save succeeds where its document can be written. -/
theorem runCommandLine_of_saves {host : Host} {store : Store} {arguments : List Text}
    {invocation : Invocation} {output : Text} {document : Document}
    (harguments : Invocation.ofTexts arguments = .ok invocation)
    (hsaves : invocation.job.Saves host store output document)
    (hwritable : store.Writable output) (hencodable : document.Encodable) :
    (runCommandLine host store arguments).ending = .exited 0 ∧
      (runCommandLine host store arguments).store.read output = .ok document.toBytes.1 ∧
      Document.ofBytes host.nesting document.toBytes.1 = .ok document := by
  obtain ⟨-, hstore⟩ := @runCommandLine_endsWith host store _ _ harguments
  have houtcome : Session.performedAt host store invocation.job = .ok () := by
    rw [(Session.performedAt_of_saves hsaves).1, Session.savedAt_eq_ok]
    exact ⟨hwritable, hencodable⟩
  rw [runCommandLine_exited_zero harguments, hstore]
  exact ⟨houtcome, Session.read_storeAfter_of_saves hsaves houtcome⟩

/-- The files change only if the command succeeds, unless its output is spoiled, and no other file
than the output ever changes. After success the output is one whole document, the one to be saved.
-/
theorem files_change_with_success {host : Host} {store : Store} {arguments : List Text}
    {invocation : Invocation} (harguments : Invocation.ofTexts arguments = .ok invocation) :
    let completion := runCommandLine host store arguments
    (Program.outputOf? invocation.job = none → completion.store = store) ∧
    (∀ output, Program.outputOf? invocation.job = some output →
      store.SameFilesBut (Path.normal store.home output) completion.store) ∧
    (completion.ending ≠ .exited 0 → store.SameFiles completion.store ∨
      invocation.job.Spoils host store completion) ∧
    (completion.ending = .exited 0 → ∀ output, Program.outputOf? invocation.job = some output →
      ∃ document bytes, invocation.job.Saves host store output document ∧
        completion.store.read output = .ok bytes ∧
          Document.ofBytes host.nesting bytes = .ok document) := by
  intro completion
  obtain ⟨⟨hending, -⟩, hstore⟩ := @runCommandLine_endsWith host store _ _ harguments
  change completion.ending = _ at hending
  change completion.store = _ at hstore
  by_cases hsaves : ∃ output document, invocation.job.Saves host store output document
  · obtain ⟨output, document, hsaves⟩ := hsaves
    obtain ⟨houtcome, hleft⟩ := Session.performedAt_of_saves hsaves
    rw [hsaves.outputOf?, hending, hstore]
    refine ⟨nofun, ?_, fun hfailed => ?_, fun hexited => ?_⟩
    · rintro _ ⟨⟩
      rw [hleft]
      exact store.sameFilesBut_write output _
    · rw [ne_eq, Invocation.endingOf_eq_exited_zero, houtcome] at hfailed
      rw [hleft]
      cases hsaved : Session.savedAt store output document with
      | ok value => exact absurd hsaved hfailed
      | error failure =>
          rcases Session.savedAt_eq_error hsaved with
            ⟨fault, hfault⟩ | ⟨hwrite, hspoiled, fault, rfl⟩
          · exact .inl (Store.sameFiles_of_write hfault)
          · refine .inr ⟨output, document, fault, hsaves, Store.write_eq_none_iff.mp hwrite,
              hspoiled, ?_, ?_⟩
            · rw [hending, houtcome, hsaved]
              rfl
            · rw [hstore, hleft]
              exact Store.read_of_write (Prod.ext rfl hwrite)
    · rw [Invocation.endingOf_eq_exited_zero] at hexited
      rintro _ ⟨⟩
      obtain ⟨hread, hbytes⟩ := Session.read_storeAfter_of_saves hsaves hexited
      exact ⟨document, _, hsaves, hread, hbytes⟩
  · simp only [not_exists] at hsaves
    obtain ⟨hleft, hsuccess⟩ := Session.performedAt_of_not_saves hsaves
    rw [hstore, hleft]
    refine ⟨fun _ => rfl, fun output _ => (Store.SameFiles.refl store).but _,
      fun _ => .inl (.refl store), fun hexited output houtput => ?_⟩
    rw [hending, Invocation.endingOf_eq_exited_zero] at hexited
    rw [hsuccess hexited] at houtput
    exact nomatch houtput

/-- A scene of one step. -/
def oneStep : Text :=
  "\x7b\"axiom\": \"F\"\x7d"

/-- A scene that closes a branch too many. -/
def unopened : Text :=
  "\x7b\"axiom\": \"F]\"\x7d"

theorem files_change_with_success_sceneStore :
    let arguments : List Text := ["generate", "scene.json", "scene.json"]
    let drawn := sceneStore (oneStep.flatMap Utf8.encodePoint)
    let failed := sceneStore (unopened.flatMap Utf8.encodePoint)
    Invocation.ofTexts arguments = .ok ⟨.generate "scene.json" (some "scene.json"), false⟩ ∧
      (runCommandLine .usual drawn arguments).ending = .exited 0 ∧
      (∃ document bytes,
        (Job.generate "scene.json" (some "scene.json")).Saves .usual drawn "scene.json" document ∧
        (runCommandLine .usual drawn arguments).store.read "scene.json" = .ok bytes ∧
        Document.ofBytes Host.usual.nesting bytes = .ok document) ∧
      (runCommandLine .usual failed arguments).ending = .exited 2 ∧
      failed.SameFiles (runCommandLine .usual failed arguments).store := by
  intro arguments drawn failed
  have harguments : Invocation.ofTexts arguments =
      .ok ⟨.generate "scene.json" (some "scene.json"), false⟩ := by decide +kernel
  have hdrawn : (runCommandLine .usual drawn arguments).ending = .exited 0 := by decide +kernel
  have hfailed : (runCommandLine .usual failed arguments).ending = .exited 2 := by decide +kernel
  refine ⟨harguments, hdrawn, ?_, hfailed, ?_⟩
  · obtain ⟨-, -, -, hsaved⟩ := @files_change_with_success .usual drawn _ _ harguments
    exact hsaved hdrawn "scene.json" rfl
  · obtain ⟨-, -, hkept, -⟩ := @files_change_with_success .usual failed _ _ harguments
    refine (hkept (by rw [hfailed]; decide)).resolve_right ?_
    rintro ⟨_, _, _, -, -, -, haborted, -⟩
    rw [hfailed] at haborted
    cases haborted

/-- A failure does change a file: a drawing under a name that cannot be encoded is begun in the
place of what the output held before. -/
theorem failure_spoils_output :
    let store := (sceneStore (unnamable.flatMap Utf8.encodePoint)).put ["home", "drawn.json"]
      (.file (("kept" : Text).flatMap Utf8.encodePoint))
    let completion := runCommandLine .usual store ["generate", "scene.json", "drawn.json"]
    completion.ending ≠ .exited 0 ∧ ¬ store.SameFiles completion.store := by
  intro store completion
  have hchanged : completion.ending ≠ .exited 0 ∧
      completion.store.fileAt? ["home", "drawn.json"] ≠ store.fileAt? ["home", "drawn.json"] := by
    decide +kernel
  exact ⟨hchanged.1, fun hsame => hchanged.2 (hsame _)⟩

end Lindenmayer
