import Lindenmayer.CommandLine.Invocation
import Lindenmayer.CommandLine.Session

/-!
# Running a command line

A command line is run on a host with a store of files. It ends with an exit code, unless its
arguments are refused or a failure aborts it. Log lines and reported failures are written apart from
what the command prints.
-/

namespace Lindenmayer

/-- How a command line ends. -/
inductive Ending where
  | refused (refusal : Refusal)
  | exited (code : Nat)
  | aborted (failure : Failure)
deriving DecidableEq

/-- What a command line leaves behind. -/
structure Completion where
  ending : Ending
  store : Store
  output : Text
  errors : Text
  notices : List Notice
deriving DecidableEq

namespace Invocation

/-- Carry out a command on a host. -/
def perform (host : Host) : Job → Step Unit
  | .generate scene output => Session.generate host scene output
  | .validate scene => Session.validate host scene
  | .random output seed => Session.random output (seed.getD host.entropy)

/-- The exit code of a failure that is reported. -/
def failureCode : Nat := 2

/-- Lines of text, each with a line feed. -/
def linesText (lines : List Text) : Text :=
  lines.flatMap (· ++ "\n")

/-- Whether a notice goes to the log. Warnings have a channel of their own. -/
def isLogged (verbose : Bool) (notice : Notice) : Bool :=
  match notice.level with
  | .debug => verbose
  | .info => true
  | .warning => false

/-- A notice as the log shows it. -/
def logLine (notice : Notice) : Text :=
  notice.level.name ++ " lsystem_turtle: " ++ notice.text

/-- The ending of a command, with the lines that report it. -/
def endingOf : Except Failure Unit → Ending × List Text
  | .ok () => (.exited 0, [])
  | .error failure =>
      match failure.heading? with
      | some heading => (.exited failureCode, [heading ++ failure.message])
      | none => (.aborted failure, [])

/-- Carry out what a command line asks for. -/
def run (host : Host) (store : Store) (invocation : Invocation) : Completion :=
  let (outcome, session) := (perform host invocation.job).run.run ⟨store, [], []⟩
  let (ending, report) := endingOf outcome
  let log := (session.notices.filter (isLogged invocation.verbose)).map logLine
  ⟨ending, session.store, linesText session.lines, linesText (log ++ report), session.notices⟩

end Invocation

/-- Run a command line on a host with a store. -/
def runCommandLine (host : Host) (store : Store) (arguments : List Text) : Completion :=
  match Invocation.ofTexts arguments with
  | .error refusal => ⟨.refused refusal, store, [], [], []⟩
  | .ok invocation => invocation.run host store

end Lindenmayer
