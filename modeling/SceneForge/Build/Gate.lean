import SceneForge.Digest
import SceneForge.Text.Quoted

/-!
# The build gate

What went into an artifact is recorded with the fingerprint of its content. The gate
compares the record of an artifact with the current state of its inputs and says
whether the artifact has to be built again, and why.
-/

namespace SceneForge

/-- The fingerprint of a content. -/
structure Fingerprint where
  bytes : Bytes
  length_bytes : bytes.length = 32
  deriving DecidableEq

namespace Fingerprint

/-- The fingerprint of a content. -/
def ofContent (content : Bytes) : Fingerprint :=
  ⟨Digest.sha256 content, Digest.length_sha256 content⟩

/-- Bytes as hexadecimal digits. -/
def digits (bytes : Bytes) : String := String.join (bytes.map fun byte => Text.hex 2 byte.toNat)

/-- The fingerprint as messages show it: its first eight bytes. -/
def text (fingerprint : Fingerprint) : String := digits (fingerprint.bytes.take 8)

/-- The fingerprint with its kind, for messages. -/
def described (fingerprint : Fingerprint) : String := s!"Fingerprint({fingerprint.text})"

end Fingerprint

/-- An input as it was when an artifact was built from it. -/
structure RecordedInput where
  target : String
  path : String
  fingerprint : Fingerprint
  version : UInt32
  deriving DecidableEq

/-- An input as it is now; without a fingerprint if it is missing. -/
structure CurrentInput where
  path : String
  fingerprint : Option Fingerprint
  deriving DecidableEq

/-- Why an artifact has to be built again. -/
inductive RebuildReason where
  | noRecord
  | versionChanged (recorded current : UInt32)
  | targetChanged (recorded current : String)
  | outputMissing
  | inputMissing (path : String)
  | inputsChanged
  | inputModified (path : String)
  deriving DecidableEq

/-- The wording of a reason. -/
def RebuildReason.message : RebuildReason → String
  | noRecord => "no cache entry"
  | versionChanged recorded current =>
      s!"format version changed from {recorded.toNat} to {current.toNat}"
  | targetChanged recorded current => s!"target changed from {recorded} to {current}"
  | outputMissing => "output missing"
  | inputMissing path => s!"input {path} missing"
  | inputsChanged => "input set changed"
  | inputModified path => s!"input {path} modified"

/-- What the gate says of an artifact. -/
inductive Verdict where
  | upToDate
  | rebuild (reason : RebuildReason)
  deriving DecidableEq

namespace Verdict

/-- Whether the artifact has to be built again. -/
def needsRebuild : Verdict → Bool
  | upToDate => false
  | rebuild _ => true

/-- Whether an input is as it was recorded. -/
def unchanged (recorded : List RecordedInput) (input : CurrentInput) : Bool :=
  recorded.any fun entry => entry.path == input.path && some entry.fingerprint == input.fingerprint

/-- The gate. The reasons are looked for in a fixed order, and the first one counts. -/
def judge (version : UInt32) (target : String) (recorded : List RecordedInput)
    (current : List CurrentInput) (outputExists : Bool) : Verdict :=
  if recorded.isEmpty then rebuild .noRecord
  else if let some entry := recorded.find? (·.version != version) then
    rebuild (.versionChanged entry.version version)
  else if let some entry := recorded.find? (·.target != target) then
    rebuild (.targetChanged entry.target target)
  else if !outputExists then rebuild .outputMissing
  else if let some input := current.find? (·.fingerprint.isNone) then
    rebuild (.inputMissing input.path)
  else if !(recorded.map (·.path)).isPerm (current.map (·.path)) then rebuild .inputsChanged
  else if let some input := current.find? (!unchanged recorded ·) then
    rebuild (.inputModified input.path)
  else upToDate

end Verdict

end SceneForge
