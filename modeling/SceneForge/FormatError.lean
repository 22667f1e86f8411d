import SceneForge.Identifier

/-!
# Problems of compiled data

What can be wrong with a container or with a scene buffer, and the wording of each
problem.
-/

namespace SceneForge

/-- A record whose bytes are there but have no meaning. -/
inductive RecordFault where
  /-- Bytes follow the last node. -/
  | trailingBytes (count : Nat)
  | unknownLightType (code : UInt32)
  | unknownValueType (code : UInt8)
  deriving DecidableEq

/-- The wording of a record's problem. -/
def RecordFault.message : RecordFault → String
  | .trailingBytes count => s!"{count} trailing bytes after the last node"
  | .unknownLightType code => s!"unknown light type {code.toNat}"
  | .unknownValueType code => s!"unknown material property value type {code.toNat}"

/-- Why compiled data is not accepted. -/
inductive FormatError where
  | truncated (needed available : Nat)
  | typeMismatch (expected found : StringId)
  | versionMismatch (expected found : UInt32)
  | sizeMismatch (expected found : Nat)
  /-- A size that the format, or the machine's 64-bit sizes, cannot express. -/
  | tooLarge (size : Nat)
  /-- The data cannot be read, or its compressed stream is corrupt. -/
  | unreadable
  | invalidRecord (fault : RecordFault)
  deriving DecidableEq

/-- The wording of a problem; reading failures are worded by the system. -/
def FormatError.message? : FormatError → Option String
  | .truncated needed available =>
      some s!"Truncated data: needed {needed} bytes, {available} available"
  | .typeMismatch expected found =>
      some s!"Format type mismatch: expected {expected.text}, found {found.text}"
  | .versionMismatch expected found =>
      some s!"Format version mismatch: expected {expected.toNat}, found {found.toNat}"
  | .sizeMismatch expected found => some s!"Size mismatch: expected {expected} bytes, found {found}"
  | .tooLarge size => some s!"Data too large for the format: {size} bytes"
  | .unreadable => none
  | .invalidRecord fault => some s!"Invalid record: {fault.message}"

end SceneForge
