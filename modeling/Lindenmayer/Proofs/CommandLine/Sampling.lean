import Lindenmayer.Proofs.Branch.Rewriting
import Lindenmayer.Proofs.CommandLine.FalseAlarms
import Mathlib.Algebra.Order.BigOperators.Group.List
import Mathlib.Data.List.MinMax

/-!
# How a sample is taken

The generations of a start word are built one after the other, up to the first one that is too long.
So only words that are short enough are rewritten, and what is built cannot get much longer.
`validate` draws the sample, and tells of the generation that was cut.
-/

namespace Lindenmayer

namespace RuleTable

variable {table : RuleTable} {symbol : CodePoint} {replacement start word : Text}
  {rewritten : List Text}

/-- Rewrite a word and note that it is rewritten. -/
def rewriteNoted (table : RuleTable) (word : Text) : StateM (List Text) Text := do
  modify (· ++ [word])
  return table.rewrite word

/-- What it means that rewriting these words, none of them too long, builds the generations of a
start word up to one of them. -/
structure BuildsUpTo (table : RuleTable) (start : Text) (rewritten : List Text) (reached : ℕ) :
    Prop where
  built : start :: rewritten.map table.rewrite = table.generations reached start
  short : ∀ word ∈ rewritten, word.length ≤ sampleLimit

/-- A sample is taken by building the generations up to the one it is taken from. -/
theorem exists_buildsUpTo (table : RuleTable) (generation left : ℕ) (word : Text)
    (noted : List Text) :
    ∃ rewritten reached, (sampleWith table.rewriteNoted generation left word).run noted =
        (table.sampleFrom generation left word, noted ++ rewritten) ∧
      (table.sampleFrom generation left word).generation = generation + reached ∧
      table.BuildsUpTo word rewritten reached := by
  induction left generalizing generation word noted with
  | zero =>
      -- Too long or not, the last generation is not rewritten.
      refine ⟨[], 0, ?_, ?_, rfl, nofun⟩
      · rw [sampleWith, sampleFrom_zero, List.append_nil]
        split <;> rfl
      · rw [sampleFrom_zero]
        split <;> rfl
  | succ left ih =>
      rw [sampleWith, sampleFrom_succ]
      split
      next => exact ⟨[], 0, by rw [List.append_nil]; rfl, rfl, rfl, nofun⟩
      next hshort =>
        -- The word is noted before those that are rewritten later on.
        obtain ⟨rewritten, reached, hrun, hreached, hbuilt, hrewritten⟩ :=
          ih (generation + 1) (table.rewrite word) (noted ++ [word])
        refine ⟨word :: rewritten, reached + 1, ?_, ?_, ?_, ?_⟩
        · rw [List.append_cons]
          exact hrun
        · rw [hreached, Nat.add_right_comm]
          rfl
        · exact congrArg (word :: ·) hbuilt
        · exact List.forall_mem_cons.mpr ⟨not_lt.mp hshort, hrewritten⟩

/-- The length of the longest replacement of a table. -/
def longest (table : RuleTable) : ℕ :=
  (table.entries.map fun entry => entry.2.length).foldr max 0

theorem length_le_longest (hlookup : table.lookup symbol = some replacement) :
    replacement.length ≤ table.longest :=
  List.le_max_of_le (List.mem_map_of_mem (mem_entries_of_lookup hlookup)) le_rfl

theorem length_image_le (table : RuleTable) (symbol : CodePoint) :
    (table.image symbol).length ≤ max 1 table.longest := by
  rw [image]
  cases hlookup : table.lookup symbol with
  | none => exact le_max_left _ _
  | some replacement => exact (length_le_longest hlookup).trans (le_max_right _ _)

theorem length_rewrite_le (table : RuleTable) (word : Text) :
    (table.rewrite word).length ≤ word.length * max 1 table.longest := by
  rw [rewrite, List.length_flatMap]
  have hsum := List.sum_le_card_nsmul (word.map fun symbol => (table.image symbol).length)
    (max 1 table.longest) (List.forall_mem_map.mpr fun symbol _ => table.length_image_le symbol)
  rwa [List.length_map, smul_eq_mul] at hsum

/-- No word that is built is longer than the start word, or than what a short word can become. -/
theorem BuildsUpTo.length_le {reached : ℕ} (hbuilds : table.BuildsUpTo start rewritten reached) :
    ∀ word ∈ table.generations reached start,
      word.length ≤ max start.length (sampleLimit * max 1 table.longest) := by
  rw [← hbuilds.built, List.forall_mem_cons, List.forall_mem_map]
  refine ⟨le_max_left _ _, fun word hword => ?_⟩
  calc (table.rewrite word).length
      ≤ word.length * max 1 table.longest := table.length_rewrite_le word
    _ ≤ sampleLimit * max 1 table.longest := Nat.mul_le_mul_right _ (hbuilds.short word hword)
    _ ≤ max start.length (sampleLimit * max 1 table.longest) := le_max_right _ _

end RuleTable

namespace Session

variable {host : Host} {store : Store} {arguments : List Text} {path word size : Text}
  {verbose : Bool} {scene : Scene} {sample : Sample} {warnings : List Text}

theorem sampleLines_cut (hword : word.length = sampleLimit) (generation tokens segments : ℕ) :
    sampleLines ⟨word, generation, true⟩ tokens segments =
      ["symbols (sampled): " ++ ("10000+" : Text),
        "tokens: " ++ Text.ofNat tokens,
        "segments: " ++ Text.ofNat segments] ++
      ["warning: generation " ++ Text.ofNat generation ++ " exceeds " ++ Text.ofNat sampleLimit ++
        " symbols; geometry stats are based on the first portion only"] := by
  have hlimit : Text.ofNat sampleLimit ++ ("+" : Text) = "10000+" := by decide
  have hsize : Sample.sizeText ⟨word, generation, true⟩ = "10000+" := by
    rw [Sample.sizeText, hword]
    exact hlimit
  rw [sampleLines, hsize]
  rfl

/-- What it means that `validate` goes by a word of a scene: the word is read and drawn, which
decides how the command ends, and the numbers of the drawing are printed with a size and with
warnings. Where the name of the scene cannot be printed, the command ends before that and prints
nothing. -/
structure ValidatesBy (host : Host) (store : Store) (arguments : List Text) (path : Text)
    (scene : Scene) (word size : Text) (warnings : List Text) : Prop where
  ending : (runCommandLine host store arguments).EndsWith ((Job.validate path).outcome host store)
  outcome (hname : host.Shows scene.name) : (Job.validate path).outcome host store =
    ((tokenize word).mapError .drawing).bind fun tokens =>
      ((interpret scene.setup tokens).outcome.mapError .drawing).bind judge
  drawn (hname : host.Shows scene.name) : ∀ tokens segments, tokenize word = .ok tokens →
    (interpret scene.setup tokens).outcome = .ok segments →
      (runCommandLine host store arguments).output = Invocation.linesText
        (sceneLines scene (RuleTable.ofRules scene.rules).1 ++
          (["symbols (sampled): " ++ size,
            "tokens: " ++ Text.ofNat tokens.length,
            "segments: " ++ Text.ofNat segments.length] ++ warnings ++ boundsLines segments))
  undrawn (hname : host.Shows scene.name) : (¬ ∃ tokens segments, tokenize word = .ok tokens ∧
      (interpret scene.setup tokens).outcome = .ok segments) →
    (runCommandLine host store arguments).output =
      Invocation.linesText (sceneLines scene (RuleTable.ofRules scene.rules).1)
  unnamed (hname : ¬ host.Shows scene.name) :
    (∃ fault, (Job.validate path).outcome host store = .error (.unencodable fault)) ∧
      (runCommandLine host store arguments).output = []

/-- What is printed about a sample that cannot be drawn. -/
theorem sampledLines_undrawn (hundrawn : ¬ ∃ tokens segments,
    tokenize (sampledWord scene) = .ok tokens ∧
      (interpret scene.setup tokens).outcome = .ok segments) : sampledLines scene = [] := by
  rw [sampledLines]
  cases htokens : tokenize (sampledWord scene) with
  | error fault => rfl
  | ok tokens =>
      rw [Except.mapError_ok, afterwards_ok]
      cases hsegments : (interpret scene.setup tokens).outcome with
      | error fault => rfl
      | ok segments => exact absurd ⟨tokens, segments, htokens, hsegments⟩ hundrawn

/-- `validate` goes by the sample of its scene. -/
theorem validatesBy_of_sample
    (hchecking : Invocation.ofTexts arguments = .ok ⟨.validate path, verbose⟩)
    (hscene : sceneAt host store path = .ok scene)
    (hsample : (RuleTable.ofRules scene.rules).1.sample scene.iterations scene.start = sample)
    (hlines : ∀ tokens segments : ℕ, sampleLines sample tokens segments =
      ["symbols (sampled): " ++ size,
        "tokens: " ++ Text.ofNat tokens,
        "segments: " ++ Text.ofNat segments] ++ warnings) :
    ValidatesBy host store arguments path scene sample.word size warnings := by
  have hword : sampledWord scene = sample.word := congrArg Sample.word hsample
  have houtcome := Job.outcome_eq host store (.validate path)
  have houtput := @runCommandLine_validate_output host store _ _ _ hchecking
  refine ⟨?_, fun hname => ?_, fun hname tokens segments htokens hsegments => ?_,
    fun hname hundrawn => ?_, fun hname => ?_⟩
  · rw [houtcome]
    exact (runCommandLine_endsWith hchecking).1
  · rw [houtcome, performedAt, validatedAt_of_scene hscene hname, sampledAt, hword]
  · rw [houtput, printedAt_of_scene hscene hname, sampledLines, hword, htokens, Except.mapError_ok,
      afterwards_ok, hsegments, Except.mapError_ok, afterwards_ok, hsample, hlines]
  · rw [← hword] at hundrawn
    rw [houtput, printedAt_of_scene hscene hname, sampledLines_undrawn hundrawn, List.append_nil]
  · obtain ⟨fault, hfault⟩ := exists_presentedAt_error hname
    refine ⟨⟨fault, ?_⟩, ?_⟩
    · rw [houtcome, performedAt, validatedAt, hscene]
      dsimp only [Except.bind]
      rw [hfault]
    · rw [houtput, printedAt, hscene, afterwards_ok, hfault]
      rfl

end Session

/-- To take a sample, `validate` builds the generations up to the first one that is too long, or all
of them if there is none. It goes by the beginning of that one and warns about it, or by the whole
last generation. All words that are rewritten are short enough, which bounds all words that are
built. -/
theorem validate_samples_first_long {host : Host} {store : Store} {arguments : List Text}
    {path : Text} {verbose : Bool} {scene : Scene}
    (hchecking : Invocation.ofTexts arguments = .ok ⟨.validate path, verbose⟩)
    (hscene : Session.sceneAt host store path = .ok scene) :
    let table := (RuleTable.ofRules scene.rules).1
    ∃ rewritten reached,
      (RuleTable.sampleWith table.rewriteNoted 0 scene.iterations scene.start).run [] =
        (table.sample scene.iterations scene.start, rewritten) ∧
      table.BuildsUpTo scene.start rewritten reached ∧
      (∀ word ∈ table.generations reached scene.start,
        word.length ≤ max scene.start.length (sampleLimit * max 1 table.longest)) ∧
      (∀ first, table.FirstLong scene.iterations scene.start first → reached = first ∧
        Session.ValidatesBy host store arguments path scene
          ((table.generation first scene.start).take sampleLimit) "10000+"
          ["warning: generation " ++ Text.ofNat first ++ " exceeds " ++ Text.ofNat sampleLimit ++
            " symbols; geometry stats are based on the first portion only"]) ∧
      ((¬ ∃ first, table.FirstLong scene.iterations scene.start first) →
        reached = scene.iterations ∧
        Session.ValidatesBy host store arguments path scene
          (table.generation scene.iterations scene.start)
          (Text.ofNat (table.generation scene.iterations scene.start).length) []) := by
  intro table
  obtain ⟨rewritten, reached, hrun, hreached, hbuilds⟩ :=
    table.exists_buildsUpTo 0 scene.iterations scene.start []
  rw [Nat.zero_add] at hreached
  refine ⟨rewritten, reached, hrun, hbuilds, hbuilds.length_le, fun first hfirst => ?_,
    fun hnone => ?_⟩
  · have hsample := RuleTable.sample_of_firstLong hfirst
    have hlength : ((table.generation first scene.start).take sampleLimit).length = sampleLimit :=
      List.length_take_of_le hfirst.long.le
    refine ⟨hreached.symm.trans (congrArg Sample.generation hsample), ?_⟩
    exact Session.validatesBy_of_sample hchecking hscene hsample (Session.sampleLines_cut hlength _)
  · have hshort : table.AllShort scene.iterations scene.start := by
      by_contra hlong
      exact hnone (RuleTable.exists_firstLong hlong)
    have hsample := RuleTable.sample_of_allShort hshort
    refine ⟨hreached.symm.trans (congrArg Sample.generation hsample), ?_⟩
    exact Session.validatesBy_of_sample hchecking hscene hsample fun tokens segments =>
      Session.sampleLines_whole _ _ tokens segments

theorem validate_samples_crowded :
    let arguments : List Text := ["validate", "scene.json"]
    Invocation.ofTexts arguments = .ok ⟨.validate "scene.json", false⟩ ∧
      Session.sceneAt .usual crowdedStore "scene.json" = .ok crowdedScene ∧
      Host.usual.Shows crowdedScene.name ∧ crowdedTable.FirstLong 4 "XF" 4 ∧
      ∃ rewritten, crowdedTable.BuildsUpTo "XF" rewritten 4 ∧
        Session.ValidatesBy .usual crowdedStore arguments "scene.json" crowdedScene
          ((crowdedTable.generation 4 "XF").take sampleLimit) "10000+"
          ["warning: generation " ++ Text.ofNat 4 ++ " exceeds " ++ Text.ofNat sampleLimit ++
            " symbols; geometry stats are based on the first portion only"] := by
  intro arguments
  have hchecking : Invocation.ofTexts arguments = .ok ⟨.validate "scene.json", false⟩ := by
    decide +kernel
  obtain ⟨rewritten, reached, -, hbuilds, -, hcut, -⟩ :=
    @validate_samples_first_long .usual _ _ _ _ _ hchecking sceneAt_crowdedStore
  obtain ⟨rfl, hvalidates⟩ := hcut 4 firstLong_crowded
  have hname : Host.usual.Shows crowdedScene.name :=
    Host.shows_of_encodable (show Text.Encodable "L-System" by decide)
  exact ⟨hchecking, sceneAt_crowdedStore, hname, firstLong_crowded, rewritten, hbuilds, hvalidates⟩

end Lindenmayer
