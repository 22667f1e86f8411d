import SceneForge.Scene

/-!
# Scenes as bytes

The layout of a scene buffer: the reserved word, the number of nodes, and for each
node its transform, the number of its items, and for each item its type, the size
of its payload and the payload. `Payload.size` says how long a payload is before it
is written.
-/

namespace SceneForge

open Binary

/-- The bytes of a number. -/
def encodeSingle (x : Single) : Bytes := Bytes.ofUInt32 x.bits

/-- The bytes of a vector. -/
def Vector3.encode (v : Vector3) : Bytes := encodeSingle v.x ++ encodeSingle v.y ++ encodeSingle v.z

/-- The bytes of a rotation. -/
def Quaternion.encode (q : Quaternion) : Bytes :=
  encodeSingle q.x ++ encodeSingle q.y ++ encodeSingle q.z ++ encodeSingle q.w

/-- The bytes of a transform. -/
def Transform.encode (t : Transform) : Bytes :=
  t.position.encode ++ t.rotation.encode ++ t.scale.encode

/-- The bytes of a list's length. -/
def encodeLength {α : Type} (list : List α) : Bytes := Bytes.ofUInt32 (UInt32.ofNat list.length)

/-- The bytes of a light. -/
def Light.encode (light : Light) : Bytes :=
  Bytes.ofUInt32 light.type.code ++ light.color.encode ++ encodeSingle light.radius ++
    encodeSingle light.innerAngle ++ encodeSingle light.outerAngle ++
    encodeSingle light.nearClipDistance ++ Bytes.ofUInt32 light.profileIndex.toUInt32

/-- The bytes of the sun. -/
def Sunlight.encode (sunlight : Sunlight) : Bytes :=
  encodeSingle sunlight.sunriseTime ++ encodeSingle sunlight.sunsetTime ++
    encodeSingle sunlight.eastDirection ++ encodeSingle sunlight.angleOfIncidence ++
    encodeSingle sunlight.timeOfDay

/-- The bytes of a mesh. -/
def Mesh.encode (mesh : Mesh) : Bytes :=
  Bytes.ofUInt32 mesh.id.raw ++ encodeLength mesh.subMeshMaterials ++
    mesh.subMeshMaterials.flatMap fun id => Bytes.ofUInt32 id.raw

/-- The bytes of a material with its properties. -/
def MaterialUse.encode (use : MaterialUse) : Bytes :=
  Bytes.ofUInt32 use.material.raw ++ Bytes.ofUInt32 use.technique.raw ++
    Bytes.ofUInt32 use.blueprint.raw ++ encodeLength use.properties ++
    use.properties.flatMap MaterialProperty.encode

namespace Payload

/-- How many bytes the payload of a light has. -/
def lightSize : Nat := 36

/-- How many bytes the payload of the sun has. -/
def sunlightSize : Nat := 20

/-- How many bytes a mesh has before its list of materials. -/
def meshSize : Nat := 8

/-- How many bytes an animated mesh has before its mesh. -/
def skeletonSize : Nat := 4

/-- How many bytes a material has before its properties. -/
def materialSize : Nat := 16

/-- How many bytes a payload has. -/
def size : Payload → Nat
  | .camera => 0
  | .light _ => lightSize
  | .sunlight _ => sunlightSize
  | .mesh content => meshSize + 4 * content.subMeshMaterials.length
  | .skeletonMesh _ content => skeletonSize + meshSize + 4 * content.subMeshMaterials.length
  | .material content => materialSize + PropertyRecord.size * content.properties.length
  | .unknown bytes => bytes.length

/-- The bytes of a payload. -/
def encode : Payload → Bytes
  | .camera => []
  | .light content => content.encode
  | .sunlight content => content.encode
  | .mesh content => content.encode
  | .skeletonMesh animation content => Bytes.ofUInt32 animation.raw ++ content.encode
  | .material content => content.encode
  | .unknown bytes => bytes

end Payload

/-- The bytes of an item. -/
def Item.encode (item : Item) : Bytes :=
  Bytes.ofUInt32 item.typeId.raw ++ Bytes.ofUInt32 (UInt32.ofNat item.payload.size) ++
    item.payload.encode

/-- The bytes of a node. -/
def Node.encode (node : Node) : Bytes :=
  node.transform.encode ++ encodeLength node.items ++ node.items.flatMap Item.encode

/-- The bytes of a scene. -/
def Scene.encode (scene : Scene) : Bytes :=
  Bytes.ofUInt32 scene.marker ++ encodeLength scene.nodes ++ scene.nodes.flatMap Node.encode

end SceneForge
