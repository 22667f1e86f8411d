import SceneForge.Assets.Context
import SceneForge.Material.Authored

/-!
# Overridden properties

An item that uses a material may set some of the properties that the material
declares. It then carries the whole declared table, in which the values that it sets
are marked. Names that the table does not hold are ignored.
-/

namespace SceneForge

namespace AssetContext

variable {σ : Type}

/-- The value of a property of the given type; a texture is resolved. -/
def propertyValue (context : AssetContext σ) (type : ValueType) (field : String)
    (value : Json.Value) : Extraction σ PropertyValue := do
  let authored := (AuthoredValue.ofJson type value).mapError (FieldError.invalid field)
  match ← (authored : Except FieldError AuthoredValue) with
  | .plain value => return value
  | .texture reference => return .texture (← context.resolveIn field reference)

/-- Sets one property of a table, if the table holds it. -/
def override (context : AssetContext σ) (table : PropertyTable) (name : String)
    (value : Json.Value) : Extraction σ PropertyTable :=
  match table.search (.ofName name) with
  | .missing _ => return table
  | .found index =>
      match table[index]? with
      | none => return table
      | some property => do
          let value ← context.propertyValue property.value.type name value
          return table.set index ⟨property.id, value, true⟩

end AssetContext

/-- Reads the properties of an item with a material. Without the field, without a
material, or if the material declares nothing, there are none. -/
def Fields.overrides {σ : Type} (fields : Fields) (context : AssetContext σ) :
    Extraction σ PropertyTable := do
  let field := "SetMaterialProperties"
  match fields.get? field with
  | none => return []
  | some (.object overrides) =>
      let material ← fields.asset "Material" context
      let blueprint ← fields.asset "MaterialBlueprint" context
      if material.isValid && blueprint.isValid then throw (.invalid field .twoMaterials)
      else if !material.isValid && !blueprint.isValid then return []
      else
        let source := if material.isValid then material else blueprint
        let declared ← (context.declared source : StateM σ (Option PropertyTable))
        overrides.foldlM
          (fun table override => context.override table override.1 override.2) (declared.getD [])
  | some _ => throw (.invalid field .notProperties)

end SceneForge
