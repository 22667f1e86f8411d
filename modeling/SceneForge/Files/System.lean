import SceneForge.Bytes
import SceneForge.Files.Path
import SceneForge.SortedMap

/-!
# File systems

A file system as a value: directories and files by their location, the directory in
which relative paths begin, and the accesses that it refuses. Every operation either
succeeds or leaves the file system as it was.
-/

namespace SceneForge

/-- Why an operation on files failed. -/
inductive FileError where
  | notFound
  | occupied
  | notDirectory
  | isDirectory
  | nameTooLong
  | invalidPath
  | refused
  deriving DecidableEq

/-- What stands at a location. -/
inductive Entry where
  | file (content : Bytes)
  | directory
  deriving DecidableEq

/-- The names that lead from the root to a file or directory. -/
abbrev Location := List Bytes

/-- Locations are in order name by name. -/
instance : Std.TransOrd Location := inferInstance

instance : Std.LawfulEqOrd Location := inferInstance

/-- The kinds of access that may be refused. -/
inductive Access where
  | read
  | makeDirectory
  | create
  | append
  | flush
  | sync
  | rename
  | remove
  deriving DecidableEq

/-- A file system as a process sees it. -/
structure FileSystem where
  /-- Everything but the root, which is always there. -/
  entries : SortedMap Location Entry
  workingDirectory : Location
  /-- Which process it is, for the names of temporary files. -/
  process : String
  /-- Whether an access is refused that would be possible otherwise. -/
  refuses : (access : Access) → (location : Location) → Bool

namespace FileSystem

/-- A file system with an empty directory to work in, which refuses nothing. -/
def empty (process : String) : FileSystem :=
  let work : Location := [Text.utf8 "work"]
  ⟨SortedMap.empty.insert work .directory, work, process, fun _ _ => false⟩

/-- What stands at a location. -/
def entry? (files : FileSystem) (location : Location) : Option Entry :=
  if location.isEmpty then some .directory else files.entries.get? location

/-- Requires a directory. -/
def requireDirectory (files : FileSystem) (location : Location) : Except FileError Unit :=
  match files.entry? location with
  | none => .error .notFound
  | some (.file _) => .error .notDirectory
  | some .directory => .ok ()

/-- How many bytes a name may have. -/
def nameLimit : Nat := 255

/-- How many bytes a path may have. -/
def pathLimit : Nat := 4095

/-- Follows names from a location on. All but the last have to lead to directories;
the last one need not lead anywhere. -/
def follow (files : FileSystem) (location : Location) :
    (names : List Bytes) → Except FileError Location
  | [] => .ok location
  | name :: rest => do
      files.requireDirectory location
      if Path.isBlank name then files.follow location rest
      else if name = Path.parentName then files.follow location.dropLast rest
      else if nameLimit < name.length then throw .nameTooLong
      else files.follow (location ++ [name]) rest

/-- Where a path begins, and its names. -/
def namesOf (files : FileSystem) (path : Path) : Except FileError (Location × List Bytes) :=
  if path.bytes.isEmpty then .error .notFound
  else if path.bytes.contains 0 then .error .invalidPath
  else if pathLimit < path.bytes.length then .error .nameTooLong
  else
    .ok (if path.isAbsolute then [] else files.workingDirectory, Path.splitNames path.bytes)

/-- What a path leads to, with its location. -/
def find (files : FileSystem) (path : Path) : Except FileError (Location × Entry) := do
  let (start, names) ← files.namesOf path
  let location ← files.follow start names
  match files.entry? location with
  | none => throw .notFound
  | some entry => return (location, entry)

/-- The location that a path names, whose directory has to be there. A path that
ends in a slash names a directory; one that ends in dots names nothing new. -/
def locate (files : FileSystem) (path : Path) (directory : Bool) : Except FileError Location := do
  let (start, names) ← files.namesOf path
  let reversed := names.reverse
  match reversed.dropWhile (· == []) with
  | [] => throw .occupied
  | last :: before =>
      let parent ← files.follow start before.reverse
      files.requireDirectory parent
      if last = Path.selfName ∨ last = Path.parentName then throw .occupied
      else if nameLimit < last.length then throw .nameTooLong
      else if reversed.head? = some [] ∧ !directory then throw .isDirectory
      else return parent ++ [last]

/-- Sets what stands at a location. -/
def put (files : FileSystem) (location : Location) (entry : Entry) : FileSystem :=
  { files with entries := files.entries.insert location entry }

/-- Requires that an access is not refused. -/
def allow (files : FileSystem) (access : Access) (location : Location) : Except FileError Unit :=
  if files.refuses access location then .error .refused else .ok ()

/-- The content of a file. -/
def read (files : FileSystem) (path : Path) : Except FileError Bytes := do
  let (location, entry) ← files.find path
  match entry with
  | .directory => throw .isDirectory
  | .file content =>
      files.allow .read location
      return content

/-- Whether a path leads to anything. -/
def pathExists (files : FileSystem) (path : Path) : Bool := (files.find path).isOk

/-- Whether a path leads to a directory. -/
def isDirectory (files : FileSystem) (path : Path) : Bool :=
  match files.find path with
  | .ok (_, .directory) => true
  | _ => false

/-- Makes one directory. -/
def makeDirectory (files : FileSystem) (path : Path) : Except FileError FileSystem := do
  let location ← files.locate path true
  match files.entry? location with
  | some _ => throw .occupied
  | none =>
      files.allow .makeDirectory location
      return files.put location .directory

/-- Makes a file empty, which is created if it is not there. -/
def create (files : FileSystem) (path : Path) : Except FileError FileSystem := do
  let location ← files.locate path false
  match files.entry? location with
  | some .directory => throw .isDirectory
  | _ =>
      files.allow .create location
      return files.put location (.file [])

/-- Finds a file in order to change it. -/
def findFile (files : FileSystem) (path : Path) (access : Access) :
    Except FileError (Location × Bytes) := do
  let location ← files.locate path false
  match files.entry? location with
  | none => throw .notFound
  | some .directory => throw .isDirectory
  | some (.file content) =>
      files.allow access location
      return (location, content)

/-- Adds bytes to the end of a file. -/
def append (files : FileSystem) (path : Path) (data : Bytes) : Except FileError FileSystem := do
  let (location, content) ← files.findFile path .append
  return files.put location (.file (content ++ data))

/-- Hands what was written to the system. -/
def flush (files : FileSystem) (path : Path) : Except FileError FileSystem := do
  let _ ← files.findFile path .flush
  return files

/-- Makes sure that what was written is stored. -/
def sync (files : FileSystem) (path : Path) : Except FileError FileSystem := do
  let _ ← files.findFile path .sync
  return files

/-- Removes a file. -/
def remove (files : FileSystem) (path : Path) : Except FileError FileSystem := do
  let (location, _) ← files.findFile path .remove
  return { files with entries := files.entries.erase location }

/-- Moves a file, in one step, to where another file may stand. -/
def rename (files : FileSystem) (source target : Path) : Except FileError FileSystem := do
  let (old, content) ← files.findFile source .rename
  let new ← files.locate target false
  match files.entry? new with
  | some .directory => throw .isDirectory
  | _ =>
      files.allow .rename new
      if new = old then return files
      else
        return { files with entries := (files.entries.erase old).insert new (.file content) }

/-- Removes a file, or a directory with everything in it. -/
def removeAll (files : FileSystem) (path : Path) : Except FileError FileSystem := do
  let (location, _) ← files.find path
  files.allow .remove location
  return { files with entries := files.entries.filterKeys fun other => !location.isPrefixOf other }

/-- The paths of everything below the working directory, in order; directories end
in a slash. -/
def list (files : FileSystem) : List String :=
  let below := files.entries.entries.filterMap fun (location, entry) =>
    if files.workingDirectory.isPrefixOf location ∧ location ≠ files.workingDirectory then
      let names := location.drop files.workingDirectory.length
      let path := String.intercalate "/" (names.map Text.lossy)
      some (if entry = .directory then path ++ "/" else path)
    else none
  below.mergeSort fun a b => decide (a ≤ b)

end FileSystem

end SceneForge
