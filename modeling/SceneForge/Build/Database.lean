import SceneForge.Build.Gate
import SceneForge.Cursor
import SceneForge.SortedMap
import SceneForge.Text.Utf8

/-!
# The build database

The records of all artifacts as a file: the version of the layout, the number of
artifacts, and for each its key and its inputs. Lengths have 64 bits; what follows
the last record is ignored.
-/

namespace SceneForge

/-- The artifact that a record belongs to: its path with slashes only. -/
structure ArtifactKey where
  text : String
  deriving DecidableEq, Inhabited

/-- Keys are ordered by their texts. -/
instance : Ord ArtifactKey := ⟨compareOn ArtifactKey.text⟩

instance : Std.TransOrd ArtifactKey := inferInstanceAs (Std.TransCmp (compareOn ArtifactKey.text))

instance : Std.LawfulEqOrd ArtifactKey where
  eq_of_compare {a b} h :=
    congrArg ArtifactKey.mk (Std.LawfulEqOrd.eq_of_compare (a := a.text) (b := b.text) h)

/-- The recorded inputs of artifacts. -/
abbrev BuildRecords := SortedMap ArtifactKey (List RecordedInput)

/-- A database: the version of its layout and its records. -/
structure Database where
  version : UInt32
  records : BuildRecords

namespace Database

/-- The version of the layout that is written. -/
def currentVersion : UInt32 := 1

/-- The bytes of a length. -/
def encodeLength (length : Nat) : Bytes := Bytes.ofNat 8 length

/-- The bytes of a text. -/
def encodeText (text : String) : Bytes :=
  let bytes := Text.utf8 text
  encodeLength bytes.length ++ bytes

/-- The bytes of an input. -/
def encodeInput (input : RecordedInput) : Bytes :=
  encodeText input.target ++ encodeText input.path ++ input.fingerprint.bytes ++
    Bytes.ofUInt32 input.version

/-- The bytes of a record. -/
def encodeRecord (record : ArtifactKey × List RecordedInput) : Bytes :=
  encodeText record.1.text ++ encodeLength record.2.length ++ record.2.flatMap encodeInput

/-- The bytes of a database. -/
def encode (database : Database) : Bytes :=
  Bytes.ofUInt32 database.version ++ encodeLength database.records.size ++
    database.records.entries.flatMap encodeRecord

/-- Reads a length. -/
def length : Reader Nat := return (← Reader.longWord).toNat

/-- Reads a text. -/
def text : Reader String := do
  match Text.ofUtf8 (← Reader.bytes (← length)) with
  | .ok text => return text
  | .error _ => throw .unreadable

/-- Reads a fingerprint. -/
def fingerprint : Reader Fingerprint := do
  let bytes ← Reader.bytes 32
  if h : bytes.length = 32 then return ⟨bytes, h⟩ else throw .unreadable

/-- Reads an input. -/
def input : Reader RecordedInput := return ⟨← text, ← text, ← fingerprint, ← Reader.word⟩

/-- Reads a record. -/
def record : Reader (ArtifactKey × List RecordedInput) := do
  let key ← text
  return (⟨key⟩, ← input.replicate (← length))

/-- Reads a database; of several records of one artifact the last counts. -/
def reader : Reader Database := do
  let version ← Reader.word
  return ⟨version, .ofList (← record.replicate (← length))⟩

/-- The database that bytes hold. -/
def decode? (bytes : Bytes) : Option Database :=
  match reader.onBytes bytes with
  | .ok (database, _) => some database
  | .error _ => none

end Database

end SceneForge
