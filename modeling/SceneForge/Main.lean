import SceneForge.Command

/-!
# The program

Carries out the requests of commands on the real file system, prints what they
report, and exits with their code.
-/

namespace SceneForge

/-- The failure behind a system's error. -/
def FileError.ofSystem : IO.Error → FileError
  | .noFileOrDirectory .. => .notFound
  | .alreadyExists .. => .occupied
  | _ => .refused

/-- The result of an action, with its failure as a value. -/
def attempt {α : Type} (action : IO α) : IO (Except FileError α) := do
  match ← action.toBaseIO with
  | .ok value => return .ok value
  | .error error => return .error (.ofSystem error)

/-- A tag that other processes do not have. -/
def processTag : IO String := do
  let bytes ← IO.getRandomBytes 8
  return String.join (bytes.toList.map fun byte => Text.hex 2 byte.toNat)

/-- A path as the system takes it. -/
def located (path : Path) := (· / path.text) <$> IO.currentDir

/-- Answers a request by the real file system. A file is closed after every request,
so that nothing is left to be flushed. -/
def FileRequest.perform {β : Type} : FileRequest β → IO β
  | process => processTag
  | read path => attempt do return (← IO.FS.readBinFile (← located path)).toList
  | pathExists path => do (← located path).pathExists
  | isDirectory path => do (← located path).isDir
  | makeDirectory path => attempt do IO.FS.createDir (← located path)
  | create path => attempt do IO.FS.writeBinFile (← located path) .empty
  | append path data => attempt do
      IO.FS.withFile (← located path) .append fun handle => handle.write ⟨data.toArray⟩
  | flush _ | sync _ => return .ok ()
  | rename source target => attempt do IO.FS.rename (← located source) (← located target)
  | remove path => attempt do IO.FS.removeFile (← located path)

/-- Prints a report. -/
def Report.print : Report → IO Unit
  | success output => IO.print output
  | failure error => IO.eprintln s!"error: {error.message}"
  | misuse error => IO.eprintln s!"error: {error.message}\n\n{Command.usage}"

end SceneForge

open SceneForge in
/-- Runs the command line with the environment's variables. How many processors there are is not
asked for. -/
def main (arguments : List String) : IO UInt32 := do
  let target ← IO.getEnv Config.targetVariable
  let jobs ← IO.getEnv Config.jobsVariable
  let lookup (name : String) : Option String :=
    if name = Config.targetVariable then target
    else if name = Config.jobsVariable then jobs
    else none
  let report ← (Command.runArguments arguments 1 lookup).interpret FileRequest.perform
  report.print
  return report.exitCode
