import SceneForge.Material

/-!
# Compiled scenes

A scene is a list of nodes; a node has a transform and items; an item has a type
and a payload. Payloads of types that this library does not know are kept as bytes.
-/

namespace SceneForge

open Binary

/-- Three components. -/
structure Vector3 where
  x : Single
  y : Single
  z : Single
  deriving DecidableEq, Inhabited

/-- A rotation. -/
structure Quaternion where
  x : Single
  y : Single
  z : Single
  w : Single
  deriving DecidableEq, Inhabited

/-- Where a node stands. -/
structure Transform where
  position : Vector3
  rotation : Quaternion
  scale : Vector3
  deriving DecidableEq, Inhabited

/-- The transform that changes nothing. -/
def Transform.identity : Transform := ⟨⟨0, 0, 0⟩, ⟨0, 0, 0, 1⟩, ⟨1, 1, 1⟩⟩

/-- The kinds of light. -/
inductive LightType where
  | directional
  | point
  | spot
  deriving DecidableEq

namespace LightType

/-- All kinds in the order of their codes. -/
def all : List LightType := [directional, point, spot]

/-- The code that is stored for a kind. -/
def code : LightType → UInt32
  | directional => 0
  | point => 1
  | spot => 2

/-- The kind with a stored code. -/
def ofCode? (code : UInt32) : Option LightType := all.find? (·.code == code)

/-- The name by which a kind is authored. -/
def name : LightType → String
  | directional => "DIRECTIONAL"
  | point => "POINT"
  | spot => "SPOT"

/-- The name of a kind in messages. -/
def label : LightType → String
  | directional => "Directional"
  | point => "Point"
  | spot => "Spot"

end LightType

/-- A light. Angles are in radians. -/
structure Light where
  type : LightType
  /-- Linear red, green and blue. -/
  color : Vector3
  radius : Single
  innerAngle : Single
  outerAngle : Single
  nearClipDistance : Single
  /-- Index of a measured light profile; negative for none. -/
  profileIndex : Int32
  deriving DecidableEq

/-- The light whose fields are all defaults: white, with a cone from 40 to 50
degrees. -/
def Light.standard : Light where
  type := .point
  color := ⟨1, 1, 1⟩
  radius := 1
  innerAngle := Single.toRadians 40
  outerAngle := Single.toRadians 50
  nearClipDistance := 0
  profileIndex := -1

/-- The sun. Times are in hours, angles in radians. -/
structure Sunlight where
  sunriseTime : Single
  sunsetTime : Single
  eastDirection : Single
  angleOfIncidence : Single
  timeOfDay : Single
  deriving DecidableEq

/-- The sun whose fields are all defaults: from half past seven to half past
twenty, at ten. -/
def Sunlight.standard : Sunlight where
  sunriseTime := 15 / 2
  sunsetTime := 41 / 2
  eastDirection := 0
  angleOfIncidence := Single.toRadians 20
  timeOfDay := 10

/-- A mesh and the materials of its parts; a part whose material is invalid keeps the
one that the mesh itself has for it. -/
structure Mesh where
  id : AssetId
  subMeshMaterials : List AssetId
  deriving DecidableEq

/-- A material or a blueprint with overridden properties. -/
structure MaterialUse where
  material : AssetId
  technique : StringId
  blueprint : AssetId
  properties : List MaterialProperty
  deriving DecidableEq

/-- What an item holds. -/
inductive Payload where
  | camera
  | light (light : Light)
  | sunlight (sunlight : Sunlight)
  | mesh (mesh : Mesh)
  | skeletonMesh (animation : AssetId) (mesh : Mesh)
  | material (use : MaterialUse)
  /-- The bytes of an item of unknown type. -/
  | unknown (bytes : Bytes)
  deriving DecidableEq

/-- An item of a node. -/
structure Item where
  typeId : StringId
  payload : Payload
  deriving DecidableEq

/-- A node of a scene. -/
structure Node where
  transform : Transform
  items : List Item
  deriving DecidableEq

/-- A scene. -/
structure Scene where
  /-- The reserved first word. -/
  marker : UInt32
  nodes : List Node
  deriving DecidableEq

namespace Scene

/-- The reserved first word of the scenes that this library writes. -/
def standardMarker : UInt32 := 42

/-- How many items the nodes have together. -/
def itemCount (scene : Scene) : Nat := (scene.nodes.map (·.items.length)).foldr (· + ·) 0

end Scene

namespace TypeId

/-- The type of cameras. -/
def camera : StringId := .ofName "CameraSceneItem"

/-- The type of lights. -/
def light : StringId := .ofName "LightSceneItem"

/-- The type of the sun. -/
def sunlight : StringId := .ofName "SunlightSceneItem"

/-- The type of meshes. -/
def mesh : StringId := .ofName "MeshSceneItem"

/-- The type of animated meshes. -/
def skeletonMesh : StringId := .ofName "SkeletonMeshSceneItem"

/-- The type of skies. -/
def sky : StringId := .ofName "SkySceneItem"

/-- The type of volumes. -/
def volume : StringId := .ofName "VolumeSceneItem"

/-- The type of grass. -/
def grass : StringId := .ofName "GrassSceneItem"

/-- The type of terrains. -/
def terrain : StringId := .ofName "TerrainSceneItem"

/-- The type of particle systems. -/
def particles : StringId := .ofName "ParticlesSceneItem"

/-- Whether items of a type use a material. -/
def usesMaterial (id : StringId) : Bool :=
  id == sky || id == volume || id == grass || id == terrain || id == particles

end TypeId

/-- The technique of items that name none. -/
def defaultTechnique : StringId := .ofName "Default"

end SceneForge
