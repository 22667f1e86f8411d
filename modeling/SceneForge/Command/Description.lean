import SceneForge.ItemKind
import SceneForge.Text.Quoted

/-!
# Description of a scene

A compiled scene as lines of text: how much there is, then every node with its
transform, and below it its items with what they hold.
-/

namespace SceneForge

open Binary

/-- Numbers in descriptions keep a `.0`, and have an exponent below a ten-thousandth
and from ten thousand million million on. -/
def describedLayout : Decimal.Layout := ⟨.up, some (-4, 15), true, false⟩

/-- A number as descriptions show it. -/
def Binary.Single.described (x : Single) : String :=
  Decimal.patternText .single describedLayout x.pattern

/-- Parts between brackets. -/
def bracketed (parts : List String) : String := "[" ++ String.intercalate ", " parts ++ "]"

/-- Named parts between braces, behind the name of what they describe. -/
def labelled (name : String) (parts : List (String × String)) : String :=
  let written := parts.map fun (part, value) => s!"{part}: {value}"
  name ++ " \x7b " ++ String.intercalate ", " written ++ " \x7d"

/-- Numbers between brackets. -/
def describedNumbers (numbers : List Single) : String := bracketed (numbers.map Single.described)

/-- Whole numbers between brackets. -/
def describedIntegers (numbers : List Int32) : String :=
  bracketed (numbers.map fun x => toString x.toInt)

/-- The components of a vector. -/
def Vector3.described (v : Vector3) : String := describedNumbers [v.x, v.y, v.z]

/-- The components of a rotation. -/
def Quaternion.described (q : Quaternion) : String := describedNumbers [q.x, q.y, q.z, q.w]

/-- A light with its fields. -/
def Light.described (light : Light) : String :=
  labelled "LightItem" [
    ("light_type", toString light.type.code.toNat),
    ("color", light.color.described),
    ("radius", light.radius.described),
    ("inner_angle", light.innerAngle.described),
    ("outer_angle", light.outerAngle.described),
    ("near_clip_distance", light.nearClipDistance.described),
    ("ies_light_profile_index", toString light.profileIndex.toInt)]

/-- The sun with its fields. -/
def Sunlight.described (sunlight : Sunlight) : String :=
  labelled "SunlightItem" [
    ("sunrise_time", sunlight.sunriseTime.described),
    ("sunset_time", sunlight.sunsetTime.described),
    ("east_direction", sunlight.eastDirection.described),
    ("angle_of_incidence", sunlight.angleOfIncidence.described),
    ("time_of_day", sunlight.timeOfDay.described)]

/-- A mesh with its materials. -/
def Mesh.described (mesh : Mesh) : String :=
  s!"mesh {mesh.id.text} sub-mesh materials " ++
    bracketed (mesh.subMeshMaterials.map AssetId.described)

/-- The components of a value. -/
def PropertyValue.describedComponents : PropertyValue → String
  | boolean value => if value then "true" else "false"
  | integer x => toString x.toInt
  | integer2 x y => describedIntegers [x, y]
  | integer3 x y z => describedIntegers [x, y, z]
  | integer4 x y z w => describedIntegers [x, y, z, w]
  | float x => x.described
  | float2 x y => describedNumbers [x, y]
  | float3 x y z => describedNumbers [x, y, z]
  | float4 x y z w => describedNumbers [x, y, z, w]
  | texture id => id.described

/-- A value with its type. -/
def PropertyValue.described (value : PropertyValue) : String :=
  s!"{value.type.label}({value.describedComponents})"

/-- A property on a line of its own; a star marks what a scene item overrides. -/
def MaterialProperty.described (property : MaterialProperty) : String :=
  let mark := if property.overwritten then "*" else ""
  s!"\n    {property.id.text}{mark} = {property.value.described}"

/-- The use of a material with its properties. -/
def MaterialUse.described (use : MaterialUse) : String :=
  s!"material {use.material.text} blueprint {use.blueprint.text} " ++
    s!"technique {use.technique.text}" ++
    String.join (use.properties.map MaterialProperty.described)

/-- What an item holds. -/
def Payload.described : Payload → String
  | camera => ""
  | light value => value.described
  | sunlight value => value.described
  | mesh value => value.described
  | skeletonMesh animation value => s!"skeleton animation {animation.text} {value.described}"
  | material use => use.described
  | unknown bytes => s!"{bytes.length} raw bytes"

/-- An item with its type. -/
def Item.described (item : Item) : String :=
  let name := ((ItemKind.ofTypeId? item.typeId).map ItemKind.name).getD "<unknown>"
  s!"  {name} ({item.typeId.text}): {item.payload.described}\n"

/-- A transform with its parts. -/
def Transform.described (transform : Transform) : String :=
  s!"position {transform.position.described} rotation {transform.rotation.described} " ++
    s!"scale {transform.scale.described}"

/-- The node at an index, with its items. -/
def Node.described (index : Nat) (node : Node) : String :=
  s!"node {index}: {node.transform.described}\n" ++ String.join (node.items.map Item.described)

/-- A scene with its nodes. -/
def Scene.described (scene : Scene) : String :=
  s!"{scene.nodes.length} node(s), {scene.itemCount} item(s)\n" ++
    String.join (scene.nodes.mapIdx Node.described)

end SceneForge
