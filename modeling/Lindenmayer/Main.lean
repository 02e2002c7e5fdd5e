import Lindenmayer.CommandLine.Run

/-!
# The program

The files and directories on the ways along the paths of a command are taken into a store, the
command line is run on this store, and what has changed in it is written back. A device or a missing
right is a fault of the system here, not one of the store.
-/

namespace Lindenmayer.Program

/-- What is told about the command line. -/
def usage : String :=
  "usage: lsystem_turtle [-h] [-v] command ...\n\n" ++
  "commands:\n" ++
  "  generate CONFIG OUTPUT       draw the scene of a file and save its segments\n" ++
  "  validate CONFIG              check the scene of a file and tell what it is like\n" ++
  "  random [--seed SEED] OUTPUT  save a random scene\n\n" ++
  "options:\n" ++
  "  -h, --help                   show this text\n" ++
  "  -v, --verbose                tell more about what is done\n"

/-- The file that a command reads. -/
def sceneOf? : Job → Option Text
  | .generate scene _ | .validate scene => some scene
  | .random .. => none

/-- The file that a command writes. -/
def outputOf? : Job → Option Text
  | .generate _ output => output
  | .random output _ => some output
  | .validate _ => none

/-- The number that the program ends with; a failure that nothing handles gives one. -/
def exitCode : Ending → Nat
  | .refused refusal => refusal.code
  | .exited code => code
  | .aborted _ => 1

/-- Take what is at a place into a store, with the bytes of a file only if they are to be read. -/
def takeIn (reading : Bool) (store : Store) (names : List Text) : IO Store := do
  if (store.find? names).isSome then return store
  let place := (← IO.currentDir) / (Path.absolute names).toString
  if ← place.isDir then return store.put names .directory
  if ← place.pathExists then
    let bytes ← if reading then IO.FS.readBinFile place else pure ByteArray.empty
    return store.put names (.file bytes.toList)
  return store

/-- Take what is on the way along a path into a store. -/
def takePath (reading : Bool) (store : Store) : Option Text → IO Store
  | none => return store
  | some path => (Path.places store.home path).foldlM (takeIn reading) store

/-- Write a change of a store back. -/
def writeBack (change : List Text × Entry) : IO Unit := do
  let place := (← IO.currentDir) / (Path.absolute change.1).toString
  match change.2 with
  | .directory => IO.FS.createDirAll place
  | .file bytes => IO.FS.writeBinFile place (ByteArray.mk bytes.toArray)

/-- The seed of a random scene for which none is given. -/
def entropy : IO Int := do
  let bytes ← IO.getRandomBytes 8
  return bytes.toList.foldl (fun seed byte => seed * 256 + byte.toNat) 0

/-- Give out what a command has printed and told, and why it ended. -/
def tell (completion : Completion) : IO Unit := do
  let warnings := completion.notices.filter fun notice => notice.level = .warning
  for warning in warnings do
    IO.eprintln (Invocation.logLine warning).toString
  IO.print completion.output.toString
  IO.eprint completion.errors.toString
  match completion.ending with
  | .refused .help => IO.print usage
  | .refused .badUsage => IO.eprint usage
  | .exited _ => return
  | .aborted failure => IO.eprintln failure.message.toString

/-- Carry out a command line on the files that it names. -/
def run (arguments : List Text) : IO UInt32 := do
  let home := Path.normal [] (Text.ofString (← IO.currentDir).toString)
  let job? := (Invocation.ofTexts arguments).toOption.map Invocation.job
  let read ← takePath true (Store.empty home) (job?.bind sceneOf?)
  let store ← takePath false read (job?.bind outputOf?)
  let host := { Host.usual with entropy := ← entropy }
  let completion := runCommandLine host store arguments
  (completion.store.changesSince store).forM writeBack
  tell completion
  return (exitCode completion.ending).toUInt32

end Lindenmayer.Program

/-- The entry point. A fault of the system ends the program like a fault of a file. -/
def main (args : List String) : IO UInt32 := do
  try
    Lindenmayer.Program.run (args.map Lindenmayer.Text.ofString)
  catch fault =>
    IO.eprintln ("File error: " ++ toString fault)
    return Lindenmayer.Invocation.failureCode.toUInt32
