import Mathlib.Data.List.Forall2
import SceneForge.Scene.Encoding

/-!
# The layout of scene buffers

This module describes scene buffers without a reader. A raw scene is a buffer taken
apart into its header, its nodes and their items. `Fits` says, in lengths, counts and
codes at fixed offsets, which raw scenes have a meaning, and `Spells` says which
scene a raw scene means. Payloads of unknown type fit whatever they hold.
-/

namespace SceneForge

section Lengths

open Binary

@[simp] theorem length_encodeSingle (x : Single) : (encodeSingle x).length = 4 := by
  simp [encodeSingle]

@[simp] theorem length_encodeLength {α : Type} (list : List α) : (encodeLength list).length = 4 := by
  simp [encodeLength]

@[simp] theorem Vector3.length_encode (v : Vector3) : v.encode.length = 12 := by
  simp [Vector3.encode]

@[simp] theorem Quaternion.length_encode (q : Quaternion) : q.encode.length = 16 := by
  simp [Quaternion.encode]

@[simp] theorem Transform.length_encode (t : Transform) : t.encode.length = 40 := by
  simp [Transform.encode]

@[simp] theorem Light.length_encode (light : Light) : light.encode.length = 36 := by
  simp [Light.encode]

@[simp] theorem Sunlight.length_encode (sunlight : Sunlight) : sunlight.encode.length = 20 := by
  simp [Sunlight.encode]

@[simp] theorem PropertyRecord.length_encode (record : PropertyRecord) :
    record.encode.length = 24 := by
  simp [PropertyRecord.encode, Words.toList]

@[simp] theorem Mesh.length_encode (mesh : Mesh) :
    mesh.encode.length = 8 + 4 * mesh.subMeshMaterials.length := by
  simp only [Mesh.encode, List.length_append, Bytes.length_ofUInt32, length_encodeLength,
    List.length_flatMap, List.map_const', List.sum_replicate_nat]
  omega

end Lengths

/-- The 32-bit word at an offset. -/
def Bytes.wordAt (bytes : Bytes) (offset : Nat) : UInt32 :=
  Bytes.toUInt32 ((bytes.drop offset).take 4)

namespace TypeId

/-- The types of items whose payloads have a layout. -/
def known : List StringId :=
  [camera, light, sunlight, mesh, skeletonMesh, sky, volume, grass, terrain, particles]

/-- The types that use a material have a layout. -/
theorem mem_known_of_usesMaterial {typeId : StringId} (uses : usesMaterial typeId) :
    typeId ∈ known := by
  simp only [usesMaterial, Bool.or_eq_true, beq_iff_eq] at uses
  simp only [known, List.mem_cons]
  rcases uses with (((rfl | rfl) | rfl) | rfl) | rfl <;> simp

end TypeId

/-- The stored records of properties, with the number of them in front. -/
def MaterialUse.Spelled (use : MaterialUse) (content : Bytes) : Prop :=
  ∃ records : List PropertyRecord,
    content = Bytes.ofUInt32 use.material.raw ++ Bytes.ofUInt32 use.technique.raw ++
        Bytes.ofUInt32 use.blueprint.raw ++ encodeLength records ++
        records.flatMap PropertyRecord.encode ∧
      records.length < 2 ^ 32 ∧
      List.Forall₂ (fun record property => MaterialProperty.ofRecord record = .ok property)
        records use.properties

namespace Payload

/-- Whether bytes have the lengths, counts and codes that payloads of a type have. -/
def Fits (typeId : StringId) (bytes : Bytes) : Prop :=
  if typeId = TypeId.camera then bytes = []
  else if typeId = TypeId.light then bytes.length = 36 ∧ bytes.wordAt 0 ≤ 2
  else if typeId = TypeId.sunlight then bytes.length = 20
  else if typeId = TypeId.mesh then bytes.length = 8 + 4 * (bytes.wordAt 4).toNat
  else if typeId = TypeId.skeletonMesh then bytes.length = 12 + 4 * (bytes.wordAt 8).toNat
  else if TypeId.usesMaterial typeId then
    bytes.length = 16 + 24 * (bytes.wordAt 12).toNat ∧
      ∀ index < (bytes.wordAt 12).toNat, bytes.getD (16 + 24 * index + 4) 0 ≤ 9
  else True

/-- Which bytes spell which payload of a type. -/
def Spells (typeId : StringId) (bytes : Bytes) : Payload → Prop
  | .camera => typeId = TypeId.camera ∧ bytes = []
  | .light content => typeId = TypeId.light ∧ bytes = content.encode
  | .sunlight content => typeId = TypeId.sunlight ∧ bytes = content.encode
  | .mesh content =>
      typeId = TypeId.mesh ∧ bytes = content.encode ∧ content.subMeshMaterials.length < 2 ^ 32
  | .skeletonMesh animation content =>
      typeId = TypeId.skeletonMesh ∧ bytes = Bytes.ofUInt32 animation.raw ++ content.encode ∧
        content.subMeshMaterials.length < 2 ^ 32
  | .material content => TypeId.usesMaterial typeId ∧ content.Spelled bytes
  | .unknown content => typeId ∉ TypeId.known ∧ bytes = content

end Payload

/-- An item as it lies in a buffer. -/
structure RawItem where
  typeId : StringId
  content : Bytes

namespace RawItem

/-- The bytes of an item: its type, the length of its payload and the payload. -/
def bytes (item : RawItem) : Bytes :=
  Bytes.ofUInt32 item.typeId.raw ++ encodeLength item.content ++ item.content

/-- Whether an item has a meaning. -/
structure Fits (item : RawItem) : Prop where
  length_lt : item.content.length < 2 ^ 32
  content_fits : Payload.Fits item.typeId item.content

/-- Which item is meant. -/
structure Spells (raw : RawItem) (item : Item) : Prop where
  typeId_eq : item.typeId = raw.typeId
  payload_spelled : Payload.Spells raw.typeId raw.content item.payload

end RawItem

/-- A node as it lies in a buffer. -/
structure RawNode where
  transform : Bytes
  items : List RawItem

namespace RawNode

/-- The bytes of a node: its transform, the number of its items and the items. -/
def bytes (node : RawNode) : Bytes :=
  node.transform ++ encodeLength node.items ++ node.items.flatMap RawItem.bytes

/-- Whether a node has a meaning. -/
structure Fits (node : RawNode) : Prop where
  transform_length : node.transform.length = 40
  count_lt : node.items.length < 2 ^ 32
  items_fit : ∀ item ∈ node.items, item.Fits

/-- Which node is meant. -/
structure Spells (raw : RawNode) (node : Node) : Prop where
  transform_eq : raw.transform = node.transform.encode
  items_spelled : List.Forall₂ RawItem.Spells raw.items node.items

end RawNode

/-- A scene buffer taken apart. -/
structure RawScene where
  header : Bytes
  nodes : List RawNode

namespace RawScene

/-- The bytes of a scene: its header, the number of its nodes and the nodes. -/
def bytes (scene : RawScene) : Bytes :=
  scene.header ++ encodeLength scene.nodes ++ scene.nodes.flatMap RawNode.bytes

/-- Whether a scene buffer has a meaning. -/
structure Fits (scene : RawScene) : Prop where
  header_length : scene.header.length = 4
  count_lt : scene.nodes.length < 2 ^ 32
  nodes_fit : ∀ node ∈ scene.nodes, node.Fits

/-- Which scene is meant. -/
structure Spells (raw : RawScene) (scene : Scene) : Prop where
  header_eq : raw.header = Bytes.ofUInt32 scene.marker
  nodes_spelled : List.Forall₂ RawNode.Spells raw.nodes scene.nodes

end RawScene

end SceneForge
