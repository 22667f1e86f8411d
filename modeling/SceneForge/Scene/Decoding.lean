import SceneForge.Scene

/-!
# Scenes from bytes

The loader's side of the layout. Every item says how many bytes its payload has, so
items of unknown type are kept without being understood; a payload of a known type
must be used up by its contents, and a buffer by its nodes.
-/

namespace SceneForge

open Binary

namespace Reader

/-- Reads a number. -/
def single : Reader Single := return ⟨← word⟩

/-- Reads a vector. -/
def vector3 : Reader Vector3 := return ⟨← single, ← single, ← single⟩

/-- Reads a rotation. -/
def quaternion : Reader Quaternion := return ⟨← single, ← single, ← single, ← single⟩

/-- Reads a transform, which is there as a whole or not at all. -/
def transform : Reader Transform := return ⟨← vector3, ← quaternion, ← vector3⟩

/-- Lets a reader read a record of `size` bytes, so that a record cut short is
missing as a whole. -/
def record {α : Type} (size : Nat) (reader : Reader α) : Reader α := do
  let (value, _) ← reader.onBytes (← bytes size)
  return value

/-- Reads a light. -/
def light : Reader Light := do
  let code ← word
  let color ← vector3
  let radius ← single
  let innerAngle ← single
  let outerAngle ← single
  let nearClipDistance ← single
  let profileIndex ← word
  match LightType.ofCode? code with
  | none => throw (.invalidRecord (.unknownLightType code))
  | some type =>
      return { type, color, radius, innerAngle, outerAngle, nearClipDistance,
               profileIndex := profileIndex.toInt32 }

/-- Reads the sun. -/
def sunlight : Reader Sunlight :=
  return ⟨← single, ← single, ← single, ← single, ← single⟩

/-- Reads a mesh. -/
def mesh : Reader Mesh := do
  let (id, count) ← record 8 (return (← word, ← word))
  let ids ← records 4 count.toNat
  return ⟨⟨id⟩, ids.map fun bytes => ⟨Bytes.toUInt32 bytes⟩⟩

/-- Reads the properties of a material, all of whose records come first. -/
def properties (count : Nat) : Reader (List MaterialProperty) := do
  let records ← records PropertyRecord.size count
  records.mapM fun bytes => do
    let (record, _) ← PropertyRecord.reader.onBytes bytes
    MaterialProperty.ofRecord record

/-- Reads a material with its properties. -/
def materialUse : Reader MaterialUse := do
  let (material, technique, blueprint, count) ←
    record 16 (return (← word, ← word, ← word, ← word))
  return ⟨⟨material⟩, ⟨technique⟩, ⟨blueprint⟩, ← properties count.toNat⟩

end Reader

namespace Payload

/-- The reader of the payloads of a type, for types that are known. -/
def reader? (typeId : StringId) : Option (Reader Payload) :=
  if typeId = TypeId.camera then some (return .camera)
  else if typeId = TypeId.light then
    some (return .light (← Reader.record 36 Reader.light))
  else if typeId = TypeId.sunlight then
    some (return .sunlight (← Reader.record 20 Reader.sunlight))
  else if typeId = TypeId.mesh then some (return .mesh (← Reader.mesh))
  else if typeId = TypeId.skeletonMesh then
    some (return .skeletonMesh ⟨← Reader.word⟩ (← Reader.mesh))
  else if TypeId.usesMaterial typeId then some (return .material (← Reader.materialUse))
  else none

/-- The payload that the bytes of an item stand for. -/
def decode (typeId : StringId) (bytes : Bytes) : Except FormatError Payload :=
  match reader? typeId with
  | none => .ok (.unknown bytes)
  | some reader => do
      let (payload, cursor) ← reader.onBytes bytes
      if cursor.rest.isEmpty then .ok payload
      else .error (.sizeMismatch cursor.offset bytes.length)

end Payload

namespace Reader

/-- Reads an item. -/
def item : Reader Item := do
  let (typeId, size) ← record 8 (return (← word, ← word))
  let payload ← Payload.decode ⟨typeId⟩ (← bytes size.toNat)
  return ⟨⟨typeId⟩, payload⟩

/-- Reads a node. -/
def node : Reader Node := do
  let (transform, count) ← record 44 (return (← transform, ← word))
  return ⟨transform, ← item.replicate count.toNat⟩

/-- Reads a scene. -/
def scene : Reader Scene := do
  let marker ← word
  let count ← word
  return ⟨marker, ← node.replicate count.toNat⟩

end Reader

/-- The scene that a buffer stands for. -/
def Scene.decode (buffer : Bytes) : Except FormatError Scene := do
  let (scene, cursor) ← Reader.scene.onBytes buffer
  if cursor.rest.isEmpty then .ok scene
  else .error (.invalidRecord (.trailingBytes cursor.remaining))

end SceneForge
