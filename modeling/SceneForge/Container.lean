import SceneForge.Cursor
import SceneForge.Deflate.Compressor

/-!
# Containers

A container is a header of sixteen bytes before a compressed stream. The header
names the format and its version, and says how long the stream is and how long the
data is that it decompresses to. None of this is trusted when a container is opened.
-/

namespace SceneForge

/-- The header of a container. -/
structure ContainerHeader where
  type : StringId
  version : UInt32
  compressedSize : UInt32
  decompressedSize : UInt32
  deriving DecidableEq

namespace ContainerHeader

/-- How many bytes a header has. -/
def size : Nat := 16

/-- The bytes of a header. -/
def encode (header : ContainerHeader) : Bytes :=
  Bytes.ofUInt32 header.type.raw ++ Bytes.ofUInt32 header.version ++
    Bytes.ofUInt32 header.compressedSize ++ Bytes.ofUInt32 header.decompressedSize

/-- The header whose bytes a container begins with, if it is of the expected type
and version; a wrong type is noticed first. -/
def decode (bytes : Bytes) (type : StringId) (version : UInt32) :
    Except FormatError ContainerHeader :=
  match splitAt? size bytes with
  | none => .error (.truncated size bytes.length)
  | some (header, _) =>
      let word (index : Nat) : UInt32 := Bytes.toUInt32 ((header.drop (4 * index)).take 4)
      let found : ContainerHeader := ⟨⟨word 0⟩, word 1, word 2, word 3⟩
      if found.type ≠ type then .error (.typeMismatch type found.type)
      else if found.version ≠ version then .error (.versionMismatch version found.version)
      else .ok found

end ContainerHeader

namespace Container

/-- Wraps data into a container. Sizes have to fit 32 bits. -/
def compress (compressor : Compressor) (type : StringId) (version : UInt32) (data : Bytes) :
    Except FormatError Bytes :=
  let stream := compressor.deflate data
  if 2 ^ 32 ≤ data.length then .error (.tooLarge data.length)
  else if 2 ^ 32 ≤ stream.length then .error (.tooLarge stream.length)
  else
    let header : ContainerHeader :=
      ⟨type, version, UInt32.ofNat stream.length, UInt32.ofNat data.length⟩
    .ok (header.encode ++ stream)

/-- The data in a container of the expected type and version. The stream has to be
as long as the header says, and so has the data; of longer data one byte too many is
decompressed. -/
def decompress (bytes : Bytes) (type : StringId) (version : UInt32) : Except FormatError Bytes := do
  let header ← ContainerHeader.decode bytes type version
  let stream := bytes.drop ContainerHeader.size
  if stream.length ≠ header.compressedSize.toNat then
    throw (.sizeMismatch header.compressedSize.toNat stream.length)
  let expected := header.decompressedSize.toNat
  match Deflate.inflate (expected + 1) stream with
  | none => throw .unreadable
  | some data =>
      if data.length ≠ expected then throw (.sizeMismatch expected data.length)
      else return data

end Container

end SceneForge
