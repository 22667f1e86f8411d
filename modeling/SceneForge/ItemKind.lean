import SceneForge.Material.Overrides
import SceneForge.Scene.Encoding

/-!
# Kinds of items

The items that a scene can hold. Each kind has a name, from which its type is
derived, a least size, and rules by which its payload is extracted from authored
fields.
-/

namespace SceneForge

open Binary

/-- A kind of item. -/
inductive ItemKind where
  | camera
  | light
  | sunlight
  | mesh
  | skeletonMesh
  | sky
  | volume
  | grass
  | terrain
  | particles
  deriving DecidableEq

/-- A rule that lights have to obey. -/
inductive LightRule where
  /-- The radius of a directional light is zero. -/
  | directionalRadius
  /-- The radius of any other light is greater than zero. -/
  | positiveRadius
  | innerAngle
  | outerAngle
  | innerBelowOuter
  | nearClip
  /-- A light with a measured profile has no authored angles. -/
  | profileAngles
  deriving DecidableEq

namespace LightRule

/-- All rules, in the order in which they are checked. -/
def all : List LightRule :=
  [directionalRadius, positiveRadius, innerAngle, outerAngle, innerBelowOuter, nearClip,
   profileAngles]

/-- Whether a light breaks a rule; `angled` says whether an angle was authored. -/
def broken (light : Light) (angled : Bool) : LightRule → Bool
  | directionalRadius => light.type == .directional && !light.radius.isZero
  | positiveRadius => light.type != .directional && light.radius.le 0
  | innerAngle => light.innerAngle.lt 0
  | outerAngle => Single.halfPi.le light.outerAngle
  | innerBelowOuter => light.outerAngle.le light.innerAngle
  | nearClip => light.nearClipDistance.lt 0
  | profileAngles => decide (0 ≤ light.profileIndex) && angled

/-- The problem of a light that breaks a rule. -/
def error : LightRule → FieldError
  | directionalRadius => .invalid "Radius" .directionalRadius
  | positiveRadius => .invalid "Radius" .radiusNotPositive
  | innerAngle => .invalid "InnerAngle" .negativeInnerAngle
  | outerAngle => .invalid "OuterAngle" .wideOuterAngle
  | innerBelowOuter => .invalid "InnerAngle" .innerNotSmaller
  | nearClip => .invalid "NearClipDistance" .negativeNearClip
  | profileAngles => .invalid "IesLightProfileIndex" .unusedAngles

end LightRule

namespace Fields

/-- Extracts a light. -/
def light (fields : Fields) : Except FieldError Light := do
  let standard := Light.standard
  let type ← fields.lightType "LightType" standard.type
  let color ← fields.color "Color" standard.color
  let radius ← fields.number "Radius" standard.radius
  let innerAngle ← fields.angle "InnerAngle" standard.innerAngle
  let outerAngle ← fields.angle "OuterAngle" standard.outerAngle
  let nearClipDistance ← fields.number "NearClipDistance" standard.nearClipDistance
  let profileIndex ← fields.integer "IesLightProfileIndex" standard.profileIndex
  let light : Light :=
    { type, color, radius, innerAngle, outerAngle, nearClipDistance, profileIndex }
  let angled := fields.contains "InnerAngle" || fields.contains "OuterAngle"
  match LightRule.all.find? (·.broken light angled) with
  | some rule => throw rule.error
  | none => return light

/-- Extracts the sun. -/
def sunlight (fields : Fields) : Except FieldError Sunlight := do
  let standard := Sunlight.standard
  return {
    sunriseTime := ← fields.timeOfDay "SunriseTime" standard.sunriseTime
    sunsetTime := ← fields.timeOfDay "SunsetTime" standard.sunsetTime
    eastDirection := ← fields.angle "EastDirection" standard.eastDirection
    angleOfIncidence := ← fields.angle "AngleOfIncidence" standard.angleOfIncidence
    timeOfDay := ← fields.timeOfDay "TimeOfDay" standard.timeOfDay }

variable {σ : Type}

/-- Requires that the number of a list's elements fits 32 bits. -/
def requireCountable {α : Type} (field : String) (fault : FieldFault) (list : List α) :
    Except FieldError Unit :=
  if list.length < 2 ^ 32 then return () else throw (.invalid field fault)

/-- Extracts a mesh. -/
def mesh (fields : Fields) (context : AssetContext σ) : Extraction σ Mesh := do
  let id ← fields.mandatoryAsset "Mesh" context
  let materials ← fields.assets "SubMeshMaterials" context
  requireCountable "SubMeshMaterials" .tooManySubMeshes materials
  return ⟨id, materials⟩

/-- Extracts an animated mesh. -/
def skeletonMesh (fields : Fields) (context : AssetContext σ) : Extraction σ Payload := do
  let animation ← fields.asset "SkeletonAnimation" context
  return .skeletonMesh animation (← fields.mesh context)

/-- Extracts the use of a material or of a blueprint; exactly one of them has to be
named. -/
def materialUse (fields : Fields) (context : AssetContext σ) : Extraction σ MaterialUse := do
  let material ← fields.asset "Material" context
  let blueprint ← fields.asset "MaterialBlueprint" context
  let technique ← fields.name "MaterialTechnique" defaultTechnique
  if !material.isValid && !blueprint.isValid then throw (.invalid "Material" .noMaterial)
  if material.isValid && blueprint.isValid then
    throw (.invalid "MaterialBlueprint" .materialDefinedToo)
  let properties ← fields.overrides context
  requireCountable "SetMaterialProperties" .tooManyProperties properties
  return ⟨material, technique, blueprint, properties⟩

end Fields

namespace ItemKind

/-- All kinds, in the order of the registry. -/
def all : List ItemKind :=
  [camera, light, sunlight, mesh, skeletonMesh, sky, volume, grass, terrain, particles]

/-- The name of a kind without its ending. -/
def label : ItemKind → String
  | camera => "Camera"
  | light => "Light"
  | sunlight => "Sunlight"
  | mesh => "Mesh"
  | skeletonMesh => "SkeletonMesh"
  | sky => "Sky"
  | volume => "Volume"
  | grass => "Grass"
  | terrain => "Terrain"
  | particles => "Particles"

/-- The name by which a kind is authored. -/
def name (kind : ItemKind) : String := kind.label ++ "SceneItem"

/-- The type of the items of a kind. -/
def typeId (kind : ItemKind) : StringId := .ofName kind.name

/-- The kind with a type. -/
def ofTypeId? (id : StringId) : Option ItemKind := all.find? (·.typeId == id)

/-- The kind with a name. Another name with the same type does not count. -/
def ofName? (name : String) : Option ItemKind :=
  (ofTypeId? (.ofName name)).filter (·.name == name)

/-- How many bytes a payload has before what repeats in it. -/
def fixedSize : ItemKind → Nat
  | camera => 0
  | light => Payload.lightSize
  | sunlight => Payload.sunlightSize
  | mesh => Payload.meshSize
  | skeletonMesh => Payload.skeletonSize + Payload.meshSize
  | sky | volume | grass | terrain | particles => Payload.materialSize

/-- The kind with what is known of it, for messages. -/
def described (kind : ItemKind) : String :=
  s!"SceneItemType \x7b kind: {kind.label}, name: {Text.quoted kind.name}, " ++
    s!"type_id: {kind.typeId.described}, fixed_size: {kind.fixedSize} \x7d"

/-- Extracts the payload of an item. -/
def extract {σ : Type} (kind : ItemKind) (fields : Fields) (context : AssetContext σ) :
    Extraction σ Payload :=
  match kind with
  | camera => return .camera
  | light => return .light (← fields.light)
  | sunlight => return .sunlight (← fields.sunlight)
  | mesh => return .mesh (← fields.mesh context)
  | skeletonMesh => fields.skeletonMesh context
  | sky | volume | grass | terrain | particles => return .material (← fields.materialUse context)

end ItemKind

end SceneForge
