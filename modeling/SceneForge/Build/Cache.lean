import SceneForge.Build.Database
import SceneForge.Files.Program

/-!
# The build cache

The records of artifacts in memory, and in a database file if there is one. The file
is written first: if that fails, the records in memory stay what they were. What
cannot be found is a missing input; any other failure to read one is an error.
-/

namespace SceneForge

/-- A problem with the cache, at a file. -/
inductive CacheError where
  | io (path : Path)
  | corrupt (path : Path)
  deriving DecidableEq

/-- The key of the artifact at a path. -/
def ArtifactKey.ofPath (path : Path) : ArtifactKey := ⟨path.portable⟩

/-- What the gate has to judge: an artifact and its inputs. -/
structure BuildRequest where
  target : String
  output : Path
  inputs : List Path
  version : UInt32
  deriving DecidableEq

/-- The key of the requested artifact. -/
def BuildRequest.key (request : BuildRequest) : ArtifactKey := .ofPath request.output

/-- A verdict with the inputs to record if the artifact is built. -/
structure BuildDecision where
  verdict : Verdict
  inputs : List RecordedInput
  deriving DecidableEq

/-- A build cache. -/
structure Cache where
  /-- The database file; without one the cache ends with the process. -/
  path : Option Path
  records : BuildRecords

namespace Cache

/-- The empty cache without a file. -/
def inMemory : Cache := ⟨none, SortedMap.empty⟩

/-- Opens a database file. A missing one, and one of another version, counts as
empty. -/
def load (path : Path) : Program (Except CacheError Cache) := do
  match ← Program.ask (.read path) with
  | .error .notFound => return .ok ⟨some path, SortedMap.empty⟩
  | .error _ => return .error (.io path)
  | .ok bytes =>
      match Database.decode? bytes with
      | none => return .error (.corrupt path)
      | some database =>
          if database.version = Database.currentVersion then
            return .ok ⟨some path, database.records⟩
          else return .ok ⟨some path, SortedMap.empty⟩

/-- How many artifacts have a record. -/
def size (cache : Cache) : Nat := cache.records.size

/-- The recorded inputs of an artifact. -/
def inputs? (cache : Cache) (key : ArtifactKey) : Option (List RecordedInput) :=
  cache.records.get? key

/-- The current state of an input. -/
def inspect (path : Path) : Program (Except CacheError CurrentInput) := do
  match ← Program.ask (.read path) with
  | .ok content => return .ok ⟨path.portable, some (.ofContent content)⟩
  | .error .notFound => return .ok ⟨path.portable, none⟩
  | .error _ => return .error (.io path)

/-- The record of a request's input, if it is there. -/
def recorded? (request : BuildRequest) (input : CurrentInput) : Option RecordedInput :=
  input.fingerprint.map fun fingerprint =>
    ⟨request.target, input.path, fingerprint, request.version⟩

/-- Lets the gate judge a request. -/
def evaluate (cache : Cache) (request : BuildRequest) :
    Program (Except CacheError BuildDecision) := do
  match ← (request.inputs.mapM fun path => ExceptT.mk (inspect path)).run with
  | .error error => return .error error
  | .ok current =>
      let outputExists ← Program.ask (.pathExists request.output)
      return .ok {
        verdict := .judge request.version request.target ((cache.inputs? request.key).getD [])
          current outputExists
        inputs := current.filterMap (recorded? request) }

/-- Writes records to the database file, if there is one. -/
def save (cache : Cache) (records : BuildRecords) : Program (Except CacheError Unit) := do
  match cache.path with
  | none => return .ok ()
  | some path =>
      let written ← Program.writeAtomically path (Database.encode ⟨Database.currentVersion, records⟩)
      return written.mapError fun _ => .io path

/-- Replaces the records, in the file first. -/
def update (cache : Cache) (records : BuildRecords) : Program (Except CacheError Unit × Cache) := do
  match ← cache.save records with
  | .ok () => return (.ok (), { cache with records })
  | .error error => return (.error error, cache)

/-- Replaces the record of an artifact. -/
def store (cache : Cache) (key : ArtifactKey) (inputs : List RecordedInput) :
    Program (Except CacheError Unit × Cache) :=
  cache.update (cache.records.insert key inputs)

/-- Removes the record of an artifact, if there is one. -/
def invalidate (cache : Cache) (key : ArtifactKey) : Program (Except CacheError Unit × Cache) :=
  if cache.records.contains key then cache.update (cache.records.erase key)
  else return (.ok (), cache)

end Cache

end SceneForge
