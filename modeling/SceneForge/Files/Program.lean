import SceneForge.Files.System

/-!
# Programs with files

A program is a sequence of requests to a file system, each of which may depend on
the answers to those before. It can be run on a file system as a value, which also
shows the states in which it may be stopped, or be carried out by whatever answers
requests.
-/

namespace SceneForge

/-- A request to a file system, with the type of its answer. -/
inductive FileRequest : Type → Type 1 where
  | process : FileRequest String
  | read (path : Path) : FileRequest (Except FileError Bytes)
  | pathExists (path : Path) : FileRequest Bool
  | isDirectory (path : Path) : FileRequest Bool
  | makeDirectory (path : Path) : FileRequest (Except FileError Unit)
  | create (path : Path) : FileRequest (Except FileError Unit)
  | append (path : Path) (data : Bytes) : FileRequest (Except FileError Unit)
  | flush (path : Path) : FileRequest (Except FileError Unit)
  | sync (path : Path) : FileRequest (Except FileError Unit)
  | rename (source target : Path) : FileRequest (Except FileError Unit)
  | remove (path : Path) : FileRequest (Except FileError Unit)

/-- The answer to a change, and the file system after it. -/
def FileSystem.changed (files : FileSystem) :
    (change : Except FileError FileSystem) → Except FileError Unit × FileSystem
  | .ok changed => (.ok (), changed)
  | .error error => (.error error, files)

/-- Answers a request. -/
def FileRequest.run {β : Type} (files : FileSystem) : FileRequest β → β × FileSystem
  | process => (files.process, files)
  | read path => (files.read path, files)
  | pathExists path => (files.pathExists path, files)
  | isDirectory path => (files.isDirectory path, files)
  | makeDirectory path => files.changed (files.makeDirectory path)
  | create path => files.changed (files.create path)
  | append path data => files.changed (files.append path data)
  | flush path => files.changed (files.flush path)
  | sync path => files.changed (files.sync path)
  | rename source target => files.changed (files.rename source target)
  | remove path => files.changed (files.remove path)

/-- A program that gives a value of type `α`. -/
inductive Program (α : Type) : Type 1 where
  | done (value : α)
  | request {β : Type} (request : FileRequest β) (next : β → Program α)

namespace Program

variable {α β : Type}

/-- One program after another. -/
def bind : (program : Program α) → (next : α → Program β) → Program β
  | done value, next => next value
  | request ask others, next => request ask fun answer => (others answer).bind next

instance : Monad Program where
  pure := done
  bind := bind

/-- A program of one request. -/
def ask (ask : FileRequest α) : Program α := request ask done

/-- Runs a program; gives its value and the file system that it leaves. -/
def run : (program : Program α) → (files : FileSystem) → α × FileSystem
  | done value, files => (value, files)
  | request ask next, files =>
      let (answer, files) := ask.run files
      (next answer).run files

/-- The file systems that there are while a program runs, the first and the last
included. -/
def states : (program : Program α) → (files : FileSystem) → List FileSystem
  | done _, files => [files]
  | request ask next, files =>
      let (answer, after) := ask.run files
      files :: (next answer).states after

@[simp] theorem run_pure (value : α) (files : FileSystem) :
    (pure value : Program α).run files = (value, files) := rfl

@[simp] theorem run_ask (ask : FileRequest α) (files : FileSystem) :
    (Program.ask ask).run files = ask.run files := rfl

@[simp] theorem run_bind (program : Program α) (next : α → Program β) (files : FileSystem) :
    (program >>= next).run files =
      (next (program.run files).1).run (program.run files).2 := by
  induction program generalizing files with
  | done value => rfl
  | request ask others ih => exact ih _ _

/-- Carries out a program with a monad's own answers to requests. -/
def interpret {m : Type → Type} [Monad m] (answer : {β : Type} → FileRequest β → m β) :
    (program : Program α) → m α
  | done value => pure value
  | request ask next => do (next (← answer ask)).interpret answer

/-- Makes the first of some directories, of which each lies in the next. -/
def makeDirectories : (paths : List Path) → Program (Except FileError Unit)
  | [] => return .error .notFound
  | path :: above => do
      if path.bytes.isEmpty then return .ok ()
      match ← ask (.makeDirectory path) with
      | .ok () => return .ok ()
      | .error .notFound =>
          match ← makeDirectories above with
          | .error error => return .error error
          | .ok () => settle path (← ask (.makeDirectory path))
      | .error error => settle path (.error error)
where
  /-- A directory that could not be made may be there nevertheless. -/
  settle (path : Path) : (made : Except FileError Unit) → Program (Except FileError Unit)
    | .ok () => return .ok ()
    | .error error => do
        if ← ask (.isDirectory path) then return .ok () else return .error error

/-- Writes a whole new file and moves it to its place. -/
def replace (temporary path : Path) (data : Bytes) : ExceptT FileError Program Unit := do
  ExceptT.mk (ask (.create temporary))
  ExceptT.mk (ask (.append temporary data))
  ExceptT.mk (ask (.flush temporary))
  ExceptT.mk (ask (.sync temporary))
  ExceptT.mk (ask (.rename temporary path))

/-- Writes a file as a whole or not at all: the data goes to a temporary file beside
it, which takes its place in one step and is removed if anything fails. -/
def writeAtomically (path : Path) (data : Bytes) : Program (Except FileError Unit) := do
  let made ←
    match path.parent? with
    | some parent =>
        if parent.bytes.isEmpty then pure (.ok ()) else makeDirectories parent.ancestors
    | none => pure (.ok ())
  match made with
  | .error error => return .error error
  | .ok () =>
      let temporary := path.temporary (← ask .process)
      match ← (replace temporary path data).run with
      | .ok () => return .ok ()
      | .error error =>
          let _ ← ask (.remove temporary)
          return .error error

end Program

end SceneForge
