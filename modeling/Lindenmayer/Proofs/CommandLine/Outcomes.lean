import Lindenmayer.CommandLine.Run
import Lindenmayer.Proofs.CommandLine.Lines
import Lindenmayer.Proofs.CommandLine.Saving
import Lindenmayer.Proofs.Drawing
import Lindenmayer.Proofs.Sampling.Scenes

/-!
# Outcomes of commands

How a command ends, what it prints and what it leaves of the files depends on the host, the store
and its operands alone: what is told on the way has no influence. Each of the three is that of the
stages of the command one after the other.
-/

namespace Lindenmayer

/-- A drawing with segments has bounds. -/
theorem Bounds.exists_ofSegments {μ : Type} {segments : List (Segment μ)} (hne : segments ≠ []) :
    ∃ bounds, Bounds.ofSegments segments = .ok bounds := by
  cases segments with
  | nil => exact absurd rfl hne
  | cons segment segments => exact ⟨_, rfl⟩

namespace Session

variable {ε α β : Type} {host : Host} {store left : Store} {path line : Text} {scene : Scene}
  {lines more : List Text}

/-- In every session with the store, the step has the outcome and leaves another store behind. -/
def Leaves (store : Store) (step : Step α) (outcome : Except Failure α) (left : Store) : Prop :=
  ∀ session : Session, session.store = store →
    ∃ after, step.run.run session = (outcome, after) ∧ after.store = left

/-- In every session with the store, the step has the outcome, prints the lines and leaves the files
alone. -/
def Prints (store : Store) (step : Step α) (outcome : Except Failure α) (lines : List Text) :
    Prop :=
  ∀ session : Session, session.store = store →
    ∃ after, step.run.run session = (outcome, after) ∧ after.store = store ∧
      after.lines = session.lines ++ lines

/-- What comes after an outcome: nothing changes after a failure. -/
def afterwards (unchanged : β) (outcome : Except Failure α) (next : α → β) : β :=
  match outcome with
  | .error _ => unchanged
  | .ok value => next value

@[simp] theorem afterwards_ok (unchanged : β) (value : α) (next : α → β) :
    afterwards unchanged (.ok value) next = next value :=
  rfl

theorem Prints.leaves {step : Step α} {outcome : Except Failure α}
    (hstep : Prints store step outcome lines) : Leaves store step outcome store := by
  intro session hsession
  obtain ⟨after, hafter, hstore, -⟩ := hstep session hsession
  exact ⟨after, hafter, hstore⟩

theorem bind_run_error {session after : Session} {first : Step α} {next : α → Step β}
    {failure : Failure} (hfirst : first.run.run session = (.error failure, after)) :
    (first >>= next).run.run session = (.error failure, after) := by
  rw [ExceptT.run_bind, StateT.run_bind, hfirst]
  rfl

/-- A step that succeeds passes its value on. -/
theorem Prints.bind_ok {first : Step α} {next : α → Step β} {value : α}
    {outcome : Except Failure β} (hfirst : Prints store first (.ok value) lines)
    (hnext : Prints store (next value) outcome more) :
    Prints store (first >>= next) outcome (lines ++ more) := by
  intro session hsession
  obtain ⟨middle, hmiddle, hstore, hlines⟩ := hfirst session hsession
  obtain ⟨after, hafter, hlast, hmore⟩ := hnext middle hstore
  refine ⟨after, (bind_run hmiddle).trans hafter, hlast, ?_⟩
  rw [hmore, hlines, List.append_assoc]

/-- The outcome of two steps is that of the second one on the value of the first. -/
theorem Prints.bind_lines {first : Step α} {next : α → Step β} {outcome : Except Failure α}
    {result : α → Except Failure β} {lines more : α → List Text}
    (hfirst : Prints store first outcome (afterwards [] outcome lines))
    (hnext : ∀ value, Prints store (next value) (result value) (more value)) :
    Prints store (first >>= next) (outcome.bind result)
      (afterwards [] outcome fun value => lines value ++ more value) := by
  cases outcome with
  | ok value => exact hfirst.bind_ok (hnext value)
  | error failure =>
      intro session hsession
      obtain ⟨middle, hmiddle, hstore, hlines⟩ := hfirst session hsession
      exact ⟨middle, bind_run_error hmiddle, hstore, hlines⟩

/-- If the first step prints nothing, the lines are those of the second one. -/
theorem Prints.bind {first : Step α} {next : α → Step β} {outcome : Except Failure α}
    {result : α → Except Failure β} {more : α → List Text} (hfirst : Prints store first outcome [])
    (hnext : ∀ value, Prints store (next value) (result value) (more value)) :
    Prints store (first >>= next) (outcome.bind result) (afterwards [] outcome more) := by
  have hnothing : afterwards [] outcome (fun _ => []) = ([] : List Text) := by
    cases outcome <;> rfl
  rw [← hnothing] at hfirst
  exact hfirst.bind_lines hnext

/-- If the first step fails, the files stay as they are. -/
theorem Prints.bind_leaves {first : Step α} {next : α → Step β} {outcome : Except Failure α}
    {result : α → Except Failure β} {left : α → Store} (hfirst : Prints store first outcome lines)
    (hnext : ∀ value, Leaves store (next value) (result value) (left value)) :
    Leaves store (first >>= next) (outcome.bind result) (afterwards store outcome left) := by
  intro session hsession
  obtain ⟨middle, hmiddle, hstore, -⟩ := hfirst session hsession
  cases outcome with
  | error failure => exact ⟨middle, bind_run_error hmiddle, hstore⟩
  | ok value =>
      obtain ⟨after, hafter, hlast⟩ := hnext value middle hstore
      exact ⟨after, (bind_run hmiddle).trans hafter, hlast⟩

/-- A last step that cannot fail changes neither the outcome nor the files. -/
theorem Leaves.bind_last {first : Step Unit} {next : Unit → Step Unit}
    {outcome : Except Failure Unit} (hfirst : Leaves store first outcome left)
    (hnext : Leaves left (next ()) (.ok ()) left) : Leaves store (first >>= next) outcome left := by
  intro session hsession
  obtain ⟨middle, hmiddle, hleft⟩ := hfirst session hsession
  cases outcome with
  | error failure => exact ⟨middle, bind_run_error hmiddle, hleft⟩
  | ok value =>
      obtain ⟨after, hafter, hkept⟩ := hnext middle hleft
      exact ⟨after, (bind_run hmiddle).trans hafter, hkept⟩

theorem prints_tell (notices : List Notice) : Prints store (tell notices) (.ok ()) [] :=
  fun _ hsession => ⟨_, rfl, hsession, (List.append_nil _).symm⟩

theorem prints_print (hshows : host.Shows line) :
    Prints store (print host line) (.ok ()) [line] := by
  intro session hsession
  rw [print, Host.accept_of_shows hshows]
  exact ⟨_, rfl, hsession, rfl⟩

theorem prints_forM_print (hlines : ∀ line ∈ lines, host.Shows line) :
    Prints store (lines.forM (print host)) (.ok ()) lines := by
  induction lines with
  | nil => exact fun session hsession => ⟨session, rfl, hsession, (List.append_nil _).symm⟩
  | cons line lines ih =>
      rw [List.forall_mem_cons] at hlines
      exact (prints_print hlines.1).bind_ok (ih hlines.2)

theorem prints_throw (failure : Failure) :
    Prints store (throw failure : Step α) (.error failure) [] :=
  fun session hsession => ⟨session, rfl, hsession, (List.append_nil _).symm⟩

theorem prints_follow (failure : ε → Failure) (report : Report ε α) :
    Prints store (follow failure report) (report.outcome.mapError failure) [] := by
  intro session hsession
  obtain ⟨notices, outcome⟩ := report
  cases outcome <;> exact ⟨_, rfl, hsession, (List.append_nil _).symm⟩

theorem prints_follow_ok (failure : ε → Failure) {report : Report ε α} {value : α}
    (houtcome : report.outcome = .ok value) :
    Prints store (follow failure report) (.ok value) [] := by
  have hfollow := @prints_follow _ _ store failure report
  rwa [houtcome] at hfollow

/-- The document in the file at a path. -/
def documentAt (host : Host) (store : Store) (path : Text) : Except Failure Document :=
  ((store.read path).mapError .file).bind fun bytes =>
    (Document.ofBytes host.nesting bytes).mapError (.load path)

/-- The scene that the file at a path describes. -/
def sceneAt (host : Host) (store : Store) (path : Text) : Except Failure Scene :=
  (documentAt host store path).bind fun document =>
    (Scene.ofDocument document).outcome.mapError .scene

/-- What comes of saving a document at a path. -/
def savedAt (store : Store) (path : Text) (document : Document) : Except Failure Unit :=
  match (store.write path document.toBytes.1).2, document.toBytes.2 with
  | some fault, _ => .error (.file fault)
  | none, some fault => .error (.unencodable fault)
  | none, none => .ok ()

theorem prints_load (path : Text) :
    Prints store (load host path) (documentAt host store path) [] := by
  rintro session rfl
  rw [load, bind_run (get_run session), documentAt]
  cases session.store.read path with
  | error fault => exact ⟨session, rfl, rfl, (List.append_nil _).symm⟩
  | ok bytes =>
      rw [Except.mapError_ok]
      dsimp only [Except.bind]
      cases Document.ofBytes host.nesting bytes <;>
        exact ⟨session, rfl, rfl, (List.append_nil _).symm⟩

theorem prints_loadScene (path : Text) :
    Prints store (loadScene host path) (sceneAt host store path) [] := by
  have hboth := (@prints_load host store path).bind fun document =>
    prints_follow .scene (Scene.ofDocument document)
  rw [sceneAt]
  cases hdocument : documentAt host store path <;> rw [hdocument] at hboth <;> exact hboth

theorem leaves_save (path : Text) (document : Document) :
    Leaves store (save path document) (savedAt store path document)
      (store.write path document.toBytes.1).1 := by
  rintro session rfl
  exact ⟨_, save_run session path document, rfl⟩

/-- What comes of drawing the scene at a path into a file. -/
def generatedAt (host : Host) (store : Store) (path : Text) (output : Option Text) :
    Except Failure Unit :=
  (sceneAt host store path).bind fun scene =>
    ((draw scene.setup scene.rules scene.start scene.iterations).outcome.mapError .drawing).bind
      fun segments =>
        match output with
        | none => .error .noOutput
        | some output =>
            savedAt store output (drawingDocument materialDocument scene.name segments)

theorem generatedAt_of_scene (hscene : sceneAt host store path = .ok scene) (output : Text) :
    generatedAt host store path (some output) =
      ((draw scene.setup scene.rules scene.start scene.iterations).outcome.mapError
        .drawing).bind fun segments =>
          savedAt store output (drawingDocument materialDocument scene.name segments) := by
  rw [generatedAt, hscene]
  rfl

/-- The word that is sampled from a scene. -/
def sampledWord (scene : Scene) : Text :=
  ((RuleTable.ofRules scene.rules).1.sample scene.iterations scene.start).word

/-- What comes of validating segments that were drawn. -/
def judge {μ : Type} (segments : List (Segment μ)) : Except Failure Unit :=
  if segments = [] then .error .nothingDrawn else .ok ()

theorem judge_eq_ok {μ : Type} {segments : List (Segment μ)} :
    judge segments = .ok () ↔ segments ≠ [] := by
  rw [judge]
  split
  next hnone => exact iff_of_false nofun (not_not_intro hnone)
  next hsome => exact iff_of_true rfl hsome

/-- What comes of drawing a sample of a scene. -/
def sampledAt (scene : Scene) : Except Failure Unit :=
  ((tokenize (sampledWord scene)).mapError .drawing).bind fun tokens =>
    ((interpret scene.setup tokens).outcome.mapError .drawing).bind judge

/-- What comes of printing the lines about a scene. -/
def presentedAt (host : Host) (scene : Scene) : Except Failure Unit :=
  (host.accept ("name: " ++ scene.name)).mapError .unencodable

/-- What comes of printing what the scene at a path is like, and of drawing a sample of it. -/
def validatedAt (host : Host) (store : Store) (path : Text) : Except Failure Unit :=
  (sceneAt host store path).bind fun scene =>
    (presentedAt host scene).bind fun () => sampledAt scene

theorem shows_name : host.Shows ("name: " ++ scene.name) ↔ host.Shows scene.name :=
  Host.shows_append (by decide)

theorem presentedAt_of_shows (hname : host.Shows scene.name) : presentedAt host scene = .ok () := by
  rw [presentedAt, Host.accept_of_shows (shows_name.mpr hname)]
  rfl

theorem exists_presentedAt_error (hname : ¬ host.Shows scene.name) :
    ∃ fault, presentedAt host scene = .error (.unencodable fault) := by
  obtain ⟨fault, hfault⟩ := Host.exists_accept_error (shows_name.not.mpr hname)
  refine ⟨fault, ?_⟩
  rw [presentedAt, hfault]
  rfl

/-- The lines about a scene are printed, all of them or none. -/
theorem prints_sceneLines (scene : Scene) (table : RuleTable) :
    Prints store ((sceneLines scene table).forM (print host)) (presentedAt host scene)
      (afterwards [] (presentedAt host scene) fun () => sceneLines scene table) := by
  by_cases hname : host.Shows scene.name
  · rw [presentedAt_of_shows hname]
    refine prints_forM_print ?_
    rw [sceneLines, List.forall_mem_cons]
    exact ⟨shows_name.mpr hname, fun line hline =>
      Host.shows_of_encodable (encodable_sceneLines scene table line hline)⟩
  · obtain ⟨fault, hfault⟩ := Host.exists_accept_error (shows_name.not.mpr hname)
    rw [presentedAt, hfault]
    intro session hsession
    refine ⟨session, bind_run_error ?_, hsession, (List.append_nil _).symm⟩
    rw [print, hfault]
    rfl

theorem validatedAt_of_scene (hscene : sceneAt host store path = .ok scene)
    (hname : host.Shows scene.name) : validatedAt host store path = sampledAt scene := by
  rw [validatedAt, hscene]
  dsimp only [Except.bind]
  rw [presentedAt_of_shows hname]

/-- A scene is valid exactly if its sample is drawn with segments. -/
theorem validatedAt_eq_ok (hscene : sceneAt host store path = .ok scene)
    (hname : host.Shows scene.name) :
    validatedAt host store path = .ok () ↔ ∃ tokens segments,
      tokenize (sampledWord scene) = .ok tokens ∧
      (interpret scene.setup tokens).outcome = .ok segments ∧ segments ≠ [] := by
  rw [validatedAt_of_scene hscene hname]
  refine Except.bind_eq_ok.trans ?_
  simp only [Except.mapError_eq_ok, exists_and_left]
  refine exists_congr fun tokens => and_congr_right fun _ => ?_
  refine Except.bind_eq_ok.trans ?_
  simp only [Except.mapError_eq_ok, judge_eq_ok]

/-- The line about the bounds of some segments, if there are any. -/
def boundsLines {μ : Type} (segments : List (Segment μ)) : List Text :=
  match Bounds.ofSegments segments with
  | .ok bounds => [boundsLine bounds]
  | .error _ => []

/-- What is printed about a drawn sample, as far as it can be drawn. -/
def sampledLines (scene : Scene) : List Text :=
  afterwards [] ((tokenize (sampledWord scene)).mapError .drawing) fun tokens =>
    afterwards [] ((interpret scene.setup tokens).outcome.mapError .drawing) fun segments =>
      sampleLines ((RuleTable.ofRules scene.rules).1.sample scene.iterations scene.start)
        tokens.length segments.length ++ boundsLines segments

/-- What is printed about the scene at a path. -/
def printedAt (host : Host) (store : Store) (path : Text) : List Text :=
  afterwards [] (sceneAt host store path) fun scene =>
    afterwards [] (presentedAt host scene) fun () =>
      sceneLines scene (RuleTable.ofRules scene.rules).1 ++ sampledLines scene

theorem printedAt_of_scene (hscene : sceneAt host store path = .ok scene)
    (hname : host.Shows scene.name) :
    printedAt host store path =
      sceneLines scene (RuleTable.ofRules scene.rules).1 ++ sampledLines scene := by
  rw [printedAt, hscene, afterwards_ok, presentedAt_of_shows hname, afterwards_ok]

/-- The bounds of segments are printed if there are any. -/
theorem prints_judge {μ : Type} (segments : List (Segment μ)) :
    Prints store (do
        if segments.isEmpty then throw .nothingDrawn
        let bounds ← follow .drawing (Report.ofExcept (Bounds.ofSegments segments))
        print host (boundsLine bounds))
      (judge segments) (boundsLines segments) := by
  cases segments with
  | nil => exact prints_throw .nothingDrawn
  | cons segment segments =>
      obtain ⟨bounds, hbounds⟩ := Bounds.exists_ofSegments (List.cons_ne_nil segment segments)
      have hlines : boundsLines (segment :: segments) = [boundsLine bounds] := by
        rw [boundsLines, hbounds]
      rw [hlines]
      have hreport : (Report.ofExcept (Bounds.ofSegments (segment :: segments))).outcome =
          .ok bounds := hbounds
      have hshows : host.Shows (boundsLine bounds) :=
        Host.shows_of_encodable (encodable_boundsLine bounds)
      exact (prints_follow_ok .drawing hreport).bind_ok (prints_print hshows)

theorem prints_validate (path : Text) :
    Prints store (validate host path) (validatedAt host store path)
      (printedAt host store path) := by
  refine (prints_loadScene path).bind fun scene => ?_
  have htable : (tableOf scene.rules).outcome = .ok (RuleTable.ofRules scene.rules).1 := rfl
  refine (prints_follow_ok .drawing htable).bind_ok ?_
  refine (prints_sceneLines scene _).bind_lines fun () => ?_
  refine (prints_follow .drawing (Report.ofExcept _)).bind fun tokens => ?_
  refine (prints_follow .drawing (interpret scene.setup tokens)).bind fun segments => ?_
  have hshows : ∀ line ∈ sampleLines ((RuleTable.ofRules scene.rules).1.sample scene.iterations
      scene.start) tokens.length segments.length, host.Shows line :=
    fun line hline => Host.shows_of_encodable (encodable_sampleLines _ _ _ line hline)
  exact (prints_forM_print hshows).bind_ok (prints_judge segments)

/-- What comes of carrying out a command. -/
def performedAt (host : Host) (store : Store) : Job → Except Failure Unit
  | .generate scene output => generatedAt host store scene output
  | .validate scene => validatedAt host store scene
  | .random output seed =>
      savedAt store output
        (RandomScene.document Twister.source (Twister.ofSeed (seed.getD host.entropy))).1

/-- The store that a command leaves behind. -/
def storeAfter (host : Host) (store : Store) : Job → Store
  | .generate path output =>
      afterwards store (sceneAt host store path) fun scene =>
        afterwards store
          ((draw scene.setup scene.rules scene.start scene.iterations).outcome.mapError .drawing)
          fun segments =>
            match output with
            | none => store
            | some output =>
                (store.write output
                  (drawingDocument materialDocument scene.name segments).toBytes.1).1
  | .validate _ => store
  | .random output seed =>
      (store.write output
        (RandomScene.document Twister.source
          (Twister.ofSeed (seed.getD host.entropy))).1.toBytes.1).1

theorem leaves_perform (host : Host) (store : Store) (job : Job) :
    Leaves store (Invocation.perform host job) (performedAt host store job)
      (storeAfter host store job) := by
  cases job with
  | generate path output =>
      refine (prints_loadScene path).bind_leaves fun scene => ?_
      refine (prints_follow .drawing (draw scene.setup scene.rules scene.start
        scene.iterations)).bind_leaves fun segments => ?_
      cases output with
      | none => exact (prints_throw .noOutput).leaves
      | some output => exact (leaves_save output _).bind_last (prints_tell _).leaves
  | validate path => exact (prints_validate path).leaves
  | random output seed =>
      -- The document that is drawn passes its check.
      have hchecked : (RandomScene.checked Twister.source
          (Twister.ofSeed (seed.getD host.entropy))).outcome = .ok _ :=
        congrArg Report.outcome (RandomScene.checked_eq _ _)
      exact (prints_follow_ok .scene hchecked).bind_leaves fun document =>
        leaves_save output document

end Session

/-- The outcome of a command on a store. -/
def Job.outcome (host : Host) (store : Store) (job : Job) : Except Failure Unit :=
  ((Invocation.perform host job).run.run ⟨store, [], []⟩).1

theorem Job.outcome_eq (host : Host) (store : Store) (job : Job) :
    job.outcome host store = Session.performedAt host store job := by
  obtain ⟨after, hperform, -⟩ := Session.leaves_perform host store job ⟨store, [], []⟩ rfl
  rw [outcome, hperform]

/-- A completion with the ending that an outcome has, and with its report after a log. -/
def Completion.EndsWith (completion : Completion) (outcome : Except Failure Unit) : Prop :=
  completion.ending = (Invocation.endingOf outcome).1 ∧
    ∃ log, completion.errors = Invocation.linesText (log ++ (Invocation.endingOf outcome).2)

/-- The ending, the report and the files of a command line are those of its command. -/
theorem runCommandLine_endsWith {host : Host} {store : Store} {arguments : List Text}
    {invocation : Invocation} (harguments : Invocation.ofTexts arguments = .ok invocation) :
    (runCommandLine host store arguments).EndsWith
        (Session.performedAt host store invocation.job) ∧
      (runCommandLine host store arguments).store =
        Session.storeAfter host store invocation.job := by
  obtain ⟨after, hperform, hstore⟩ :=
    Session.leaves_perform host store invocation.job ⟨store, [], []⟩ rfl
  rw [runCommandLine, harguments]
  dsimp only
  rw [Invocation.run, hperform]
  exact ⟨⟨rfl, _, rfl⟩, hstore⟩

/-- `validate` prints what its scene is like. -/
theorem runCommandLine_validate_output {host : Host} {store : Store} {arguments : List Text}
    {path : Text} {verbose : Bool}
    (harguments : Invocation.ofTexts arguments = .ok ⟨.validate path, verbose⟩) :
    (runCommandLine host store arguments).output =
      Invocation.linesText (Session.printedAt host store path) := by
  obtain ⟨after, hvalidate, -, hlines⟩ :=
    @Session.prints_validate host store path ⟨store, [], []⟩ rfl
  rw [runCommandLine, harguments]
  dsimp only
  rw [Invocation.run, Invocation.perform, hvalidate]
  exact congrArg Invocation.linesText hlines

theorem Invocation.endingOf_eq_exited_zero {outcome : Except Failure Unit} :
    (Invocation.endingOf outcome).1 = .exited 0 ↔ outcome = .ok () := by
  cases outcome with
  | ok value => exact iff_of_true rfl rfl
  | error failure =>
      simp only [reduceCtorEq, iff_false]
      rw [Invocation.endingOf]
      split <;> simp [Invocation.failureCode]

/-- A command line succeeds exactly if its command does. -/
theorem runCommandLine_exited_zero {host : Host} {store : Store} {arguments : List Text}
    {invocation : Invocation} (harguments : Invocation.ofTexts arguments = .ok invocation) :
    (runCommandLine host store arguments).ending = .exited 0 ↔
      Session.performedAt host store invocation.job = .ok () := by
  obtain ⟨⟨hending, -⟩, -⟩ := @runCommandLine_endsWith host store _ _ harguments
  rw [hending, Invocation.endingOf_eq_exited_zero]

end Lindenmayer
