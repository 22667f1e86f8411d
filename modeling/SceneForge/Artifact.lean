import SceneForge.Container
import SceneForge.Scene.Decoding

/-!
# Scene artifacts

A compiled scene as it is stored: a container of the scene format around the scene's
buffer.
-/

namespace SceneForge.Artifact

/-- The format that scene artifacts name. -/
def format : StringId := .ofName "SceneAsset"

/-- The version of the format that this library writes and reads. -/
def version : UInt32 := 1

/-- The artifact of a scene buffer. -/
def encode (compressor : Compressor) (buffer : Bytes) : Except FormatError Bytes :=
  Container.compress compressor format version buffer

/-- The scene buffer in an artifact. -/
def decode (artifact : Bytes) : Except FormatError Bytes :=
  Container.decompress artifact format version

/-- The scene in an artifact. -/
def scene (artifact : Bytes) : Except FormatError Scene := do Scene.decode (← decode artifact)

end SceneForge.Artifact
