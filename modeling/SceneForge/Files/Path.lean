import SceneForge.Text.Utf8

/-!
# Paths

A path is kept as it was given, in bytes that need not spell a text. Its last name, its
parent and its neighbours are found as on file systems with slashes: repeated slashes,
slashes at the end, and single dots that are not at the beginning, mean nothing. Where a
path becomes a text, what is no text is replaced, so that different paths can have the same
text.
-/

namespace SceneForge

/-- A path as it was given. -/
structure Path where
  bytes : Bytes
  deriving DecidableEq, Inhabited

namespace Path

/-- The byte between names. -/
def slash : UInt8 := 0x2f

/-- The byte in front of an extension. -/
def dot : UInt8 := 0x2e

/-- The name of a directory in itself. -/
def selfName : Bytes := [dot]

/-- The name in a directory of the one above it. -/
def parentName : Bytes := [dot, dot]

/-- The path that a text spells. -/
def ofText (text : String) : Path := ⟨Text.utf8 text⟩

/-- The text of a path. -/
def text (path : Path) : String := Text.lossy path.bytes

/-- Whether a path begins at the root. -/
def isAbsolute (path : Path) : Bool := path.bytes.head? == some slash

/-- The root or the leading dot of a path, and what follows. -/
def splitAnchor : (bytes : Bytes) → Bytes × Bytes
  | [] => ([], [])
  | first :: rest =>
      if first = slash then ([slash], rest)
      else if first = dot ∧ rest.head?.getD slash = slash then (selfName, rest)
      else ([], first :: rest)

/-- The names between slashes, empty ones included. -/
def splitNames : (bytes : Bytes) → List Bytes
  | [] => [[]]
  | byte :: rest =>
      if byte = slash then [] :: splitNames rest
      else match splitNames rest with
        | [] => [[byte]]
        | name :: names => (byte :: name) :: names

/-- Whether a name leads nowhere. -/
def isBlank (name : Bytes) : Bool := name == [] || name == selfName

/-- The names behind the root or leading dot, last first, from the last one on that
leads somewhere. -/
def reversedNames (path : Path) : List Bytes :=
  (splitNames (splitAnchor path.bytes).2).reverse.dropWhile isBlank

/-- The last name, if it names a file. -/
def fileName? (path : Path) : Option Bytes :=
  match path.reversedNames with
  | [] => none
  | name :: _ => if name = parentName then none else some name

/-- The path without its last name. -/
def parent? (path : Path) : Option Path :=
  let anchor := (splitAnchor path.bytes).1
  match path.reversedNames with
  | [] => if anchor = selfName then some ⟨[]⟩ else none
  | _ :: names => some ⟨anchor ++ List.intercalate [slash] (names.dropWhile isBlank).reverse⟩

/-- The path and what lies above it, nearest first. -/
def ancestors (path : Path) : List Path := go (path.bytes.length + 1) path
where
  /-- Follows at most `fuel` steps; every step makes the path shorter. -/
  go : (fuel : Nat) → (path : Path) → List Path
    | 0, _ => []
    | fuel + 1, path => path :: (path.parent?.map (go fuel)).getD []

/-- The path of something in a directory; an absolute path stays what it is. -/
def join (directory path : Path) : Path :=
  if path.isAbsolute || directory.bytes.isEmpty then path
  else if directory.bytes.getLast? == some slash then ⟨directory.bytes ++ path.bytes⟩
  else ⟨directory.bytes ++ slash :: path.bytes⟩

/-- The path with another last name, or with one more name if it has none. -/
def withFileName (path : Path) (name : Bytes) : Path :=
  match path.fileName?, path.parent? with
  | some _, some parent => parent.join ⟨name⟩
  | _, _ => path.join ⟨name⟩

/-- A name up to its last dot, unless this is where it begins. -/
def stemOf (name : Bytes) : Bytes :=
  match name.reverse.dropWhile (· ≠ dot) with
  | [] | [_] => name
  | _ :: stem => stem.reverse

/-- The last name without its extension. -/
def stem? (path : Path) : Option Bytes := path.fileName?.map stemOf

/-- The text of a path with slashes only, as build records name it. -/
def portable (path : Path) : String :=
  String.ofList (path.text.toList.map fun c => if c = '\\' then '/' else c)

/-- The name of the temporary file for a name. -/
def temporaryName (process : String) (name : Option Bytes) : Bytes :=
  let shown := (name.map Text.lossy).getD "artifact"
  Text.utf8 s!".{shown}.{process}.tmp"

/-- The temporary file beside a file that a process is about to write. -/
def temporary (process : String) (path : Path) : Path :=
  path.withFileName (temporaryName process path.fileName?)

end Path

end SceneForge
