import Lindenmayer.CommandLine.Failure
import Lindenmayer.CommandLine.Sample
import Lindenmayer.Drawing
import Lindenmayer.Export
import Lindenmayer.Sampling.Scene
import Lindenmayer.Sampling.Twister
import Lindenmayer.Scene.Reader

/-!
# Commands

A command works on a session: the store of files, the lines it prints, and the notices it gives. A
failure ends it and leaves the session as it is then. The host on which the command runs decides how
deep a document may be, and whether a line with a surrogate can be printed.
-/

namespace Lindenmayer

/-- What a command takes from the system that it runs on, apart from the files. -/
structure Host where
  /-- The seed of a random scene for which none is given. -/
  entropy : Int
  /-- So many arrays and objects may be open at once while a document is read. What commands write
  is never that deep. -/
  nesting : Nat
  /-- Whether lines are encoded to be printed, or kept as they are. -/
  encodes : Bool
  nesting_ge : 100 ≤ nesting

/-- The usual host. -/
def Host.usual : Host :=
  ⟨0, 990, true, by decide⟩

/-- Whether a host can print a line, or what keeps it from that. -/
def Host.accept (host : Host) (line : Text) : Except Utf8.EncodeFault Unit :=
  if host.encodes then (Utf8.encode line).map fun _ => () else .ok ()

/-- The files, and what a command has printed and told. -/
structure Session where
  store : Store
  lines : List Text
  notices : List Notice

/-- A part of a command, which changes the session and may fail. -/
abbrev Step := ExceptT Failure (StateM Session)

namespace Session

/-- Print a line. Nothing of a line is printed that cannot be encoded. -/
def print (host : Host) (line : Text) : Step Unit :=
  match host.accept line with
  | .error fault => throw (.unencodable fault)
  | .ok () => modify fun session => { session with lines := session.lines ++ [line] }

/-- Give some notices. -/
def tell (notices : List Notice) : Step Unit :=
  modify fun session => { session with notices := session.notices ++ notices }

/-- Give the notices of a report and go on with its value. -/
def follow {ε α : Type} (failure : ε → Failure) (report : Report ε α) : Step α := do
  tell report.notices
  match report.outcome with
  | .ok value => return value
  | .error fault => throw (failure fault)

/-- Load the document in the file at a path. -/
def load (host : Host) (path : Text) : Step Document := do
  match (← get).store.read path with
  | .error fault => throw (.file fault)
  | .ok bytes =>
      match Document.ofBytes host.nesting bytes with
      | .error fault => throw (.load path fault)
      | .ok document => return document

/-- Load the scene that the file at a path describes. -/
def loadScene (host : Host) (path : Text) : Step Scene := do
  follow .scene (Scene.ofDocument (← load host path))

/-- Save a document at a path. What can be encoded is written even if something else cannot. -/
def save (path : Text) (document : Document) : Step Unit := do
  let session ← get
  let (bytes, unencodable) := document.toBytes
  let (store, flaw) := session.store.write path bytes
  set { session with store := store }
  -- A path is looked at before its text is encoded.
  match flaw, unencodable with
  | some fault, _ => throw (.file fault)
  | none, some fault => throw (.unencodable fault)
  | none, none => return

/-- Draw the scene at a path and save its segments. -/
def generate (host : Host) (path : Text) (output : Option Text) : Step Unit := do
  let scene ← loadScene host path
  let segments ← follow .drawing (draw scene.setup scene.rules scene.start scene.iterations)
  match output with
  | none => throw .noOutput
  | some output =>
      save output (drawingDocument materialDocument scene.name segments)
      tell [.written segments.length output]

/-- Save the random scene of a seed. -/
def random (output : Text) (seed : Int) : Step Unit := do
  save output (← follow .scene (RandomScene.checked Twister.source (Twister.ofSeed seed)))

/-- A vector as messages show it, its coordinates written by `write`. -/
def vectorText (write : Float → Text) (vector : Vec3) : Text :=
  "(" ++ Text.joinWith ", " [write vector.x, write vector.y, write vector.z] ++ ")"

/-- The line about the turtle of a scene. -/
def setupText (setup : Setup (Option Text)) : Text :=
  let write := Layout.plain.writeShortest
  "turtle: angle=" ++ write setup.angle ++ " length=" ++ write setup.length ++ " width=" ++
    write setup.width ++ " width_scale=" ++ write setup.widthScale ++ " length_scale=" ++
    write setup.lengthScale ++ " heading=" ++ vectorText write setup.heading

/-- The lines about a scene, its name first. -/
def sceneLines (scene : Scene) (table : RuleTable) : List Text :=
  ["name: " ++ scene.name,
    "axiom length: " ++ Text.ofNat scene.start.length,
    "iterations: " ++ Text.ofNat scene.iterations,
    "rules: " ++ Text.ofNat scene.rules.length ++ " (" ++ Text.ofNat table.size ++
      " distinct keys)",
    setupText scene.setup,
    "materials: " ++ Text.ofNat scene.setup.materials.length]

/-- The lines about a sample and its drawing, with a warning if the sample was cut. -/
def sampleLines (sample : Sample) (tokens segments : Nat) : List Text :=
  ["symbols (sampled): " ++ sample.sizeText,
    "tokens: " ++ Text.ofNat tokens,
    "segments: " ++ Text.ofNat segments] ++
  if sample.cut then
    ["warning: generation " ++ Text.ofNat sample.generation ++ " exceeds " ++
      Text.ofNat sampleLimit ++
      " symbols; geometry stats are based on the first portion only"]
  else []

/-- The line about the bounds of a drawing. -/
def boundsLine (bounds : Bounds) : Text :=
  "bounds: min=" ++ vectorText Layout.writeBrief bounds.least ++ " max=" ++
    vectorText Layout.writeBrief bounds.greatest

/-- Draw a sample of the scene at a path and print what it is like. -/
def validate (host : Host) (path : Text) : Step Unit := do
  let scene ← loadScene host path
  let table ← follow .drawing (tableOf scene.rules)
  (sceneLines scene table).forM (print host)
  let sample := table.sample scene.iterations scene.start
  let tokens ← follow .drawing (Report.ofExcept (tokenize sample.word))
  let segments ← follow .drawing (interpret scene.setup tokens)
  (sampleLines sample tokens.length segments.length).forM (print host)
  if segments.isEmpty then throw .nothingDrawn
  let bounds ← follow .drawing (Report.ofExcept (Bounds.ofSegments segments))
  print host (boundsLine bounds)

end Session

end Lindenmayer
