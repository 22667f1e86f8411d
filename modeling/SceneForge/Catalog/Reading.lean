import SceneForge.Catalog
import SceneForge.Files.Program
import SceneForge.Json.Record
import SceneForge.Material.Overrides
import SceneForge.Text.Utf8

/-!
# Catalogs from JSON

A catalog file lists assets by reference. Every asset may have an identifier of its
own, a blueprint, and properties with a type and a value. The identifiers of all
assets are settled before any property is read, so that a texture may be any asset of
the file.
-/

namespace SceneForge

open Json (Category Tree Value)

/-- Why a catalog is not accepted. -/
inductive CatalogError where
  /-- The file cannot be read. -/
  | unreadable (path : Path)
  | json (category : Category)
  | duplicateId (first second : String) (id : AssetId)
  | property (asset property : String) (error : FieldError)

/-- The wording of a problem, as far as it is this library's. -/
def CatalogError.message? : CatalogError → Option String
  | unreadable _ | json _ => none
  | duplicateId first second id =>
      some s!"Assets \"{first}\" and \"{second}\" share asset ID {id.text}"
  | property asset name error =>
      some s!"Asset \"{asset}\", property \"{name}\": {error.message}"

/-- A declared property as it is written. -/
structure Declaration where
  type : String
  value : Value

/-- An asset as it is written. -/
structure SourceAsset where
  id : Option UInt32
  blueprint : Option String
  properties : SortedMap String Declaration

namespace Declaration

/-- Reads a declaration; both fields have to be there. -/
def read (budget : Nat) (tree : Tree) : Except Category Declaration := do
  let fields : List (Tree.Field (Option String × Option Value)) :=
    [ ⟨"ValueType", fun budget tree state =>
        return (some (← Tree.readString budget tree), state.2)⟩,
      ⟨"Value", fun budget tree state => return (state.1, some (← tree.value budget))⟩ ]
  match ← Tree.readRecord fields (none, none) budget tree with
  | (some type, some value) => return ⟨type, value⟩
  | _ => throw .mismatch

end Declaration

namespace SourceAsset

/-- The fields of an asset. -/
def fields : List (Tree.Field SourceAsset) :=
  [ ⟨"Id", fun budget tree asset => do
      return { asset with id := ← Tree.readOption Tree.readWord budget tree }⟩,
    ⟨"MaterialBlueprint", fun budget tree asset => do
      return { asset with blueprint := ← Tree.readOption Tree.readString budget tree }⟩,
    ⟨"Properties", fun budget tree asset => do
      let properties ← Tree.readMap Declaration.read budget tree
      return { asset with properties := .ofList properties }⟩ ]

/-- Reads an asset. -/
def read : (budget : Nat) → (tree : Tree) → Except Category SourceAsset :=
  Tree.readRecord fields ⟨none, none, SortedMap.empty⟩

/-- The identifier of the asset with a reference. -/
def idFor (asset : SourceAsset) (reference : String) : AssetId :=
  match asset.id with
  | some raw => ⟨raw⟩
  | none => .ofReference reference

end SourceAsset

namespace Catalog

/-- The assets that a text lists, by reference; a repeated reference counts where it
stands last. -/
def readAssets (text : String) : Except Category (SortedMap String SourceAsset) := do
  let reading := Tree.read text
  let field : Tree.Field (Option (List (String × SourceAsset))) :=
    ⟨"Assets", fun budget tree _ => some <$> Tree.readMap SourceAsset.read budget tree⟩
  let assets := do
    match ← Tree.readRecord [field] none Tree.nestingLimit reading.tree with
    | some assets => return .ofList assets
    | none => throw .mismatch
  reading.whole assets

/-- Adds an asset unless its identifier is taken. -/
def insertNew (catalog : Catalog) (reference : String) (id : AssetId) :
    Except CatalogError Catalog :=
  match catalog.entries.get? id with
  | some entry => .error (.duplicateId entry.reference reference id)
  | none => .ok (catalog.insert reference id)

/-- The value of a declaration in a catalog whose references are all known. -/
def declaredValue (catalog : Catalog) (name : String) (declaration : Declaration) :
    Except FieldError PropertyValue :=
  match ValueType.ofName? declaration.type with
  | none => .error (.unknownName "ValueType" declaration.type (ValueType.all.map (·.name)))
  | some type =>
      let context : AssetContext Unit := catalog.context
      ((context.propertyValue type name declaration.value).run.run ()).run.1

/-- Reads the declarations of an asset. -/
def addDeclarations (catalog : Catalog) (reference : String) (asset : SourceAsset) :
    Except CatalogError Catalog := do
  let properties ← asset.properties.entries.mapM fun (name, declaration) => do
    let value ← (catalog.declaredValue name declaration).mapError (.property reference name)
    return MaterialProperty.declared (.ofName name) value
  match catalog.ids.get? reference with
  | none => return catalog
  | some id => return catalog.declare id asset.blueprint properties

/-- The catalog that a text describes. -/
def read (text : String) : Except CatalogError Catalog := do
  let assets := (← (readAssets text).mapError CatalogError.json).entries
  let catalog ← assets.foldlM
    (fun catalog (reference, asset) => catalog.insertNew reference (asset.idFor reference)) empty
  assets.foldlM
    (fun catalog (reference, asset) => catalog.addDeclarations reference asset) catalog

/-- The catalog that a file describes. -/
def load (path : Path) : Program (Except CatalogError Catalog) := do
  match ← Program.ask (.read path) with
  | .error _ => return .error (.unreadable path)
  | .ok bytes =>
      match Text.ofUtf8 bytes with
      | .error _ => return .error (.unreadable path)
      | .ok text => return (read text).map fun catalog => { catalog with source := some path }

end Catalog

end SceneForge
