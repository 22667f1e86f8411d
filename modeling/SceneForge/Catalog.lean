import SceneForge.Assets.Context
import SceneForge.Files.Path
import SceneForge.SortedMap

/-!
# Asset catalogs

A catalog knows the identifiers of references, and of every asset the properties it
declares and the blueprint it builds on. An asset has its blueprint's own properties
as well, unless it declares them itself; a blueprint of the blueprint does not count.
-/

namespace SceneForge

/-- An asset of a catalog. -/
structure CatalogEntry where
  reference : String
  blueprint : Option String
  properties : PropertyTable

/-- A catalog. -/
structure Catalog where
  ids : SortedMap String AssetId
  entries : SortedMap AssetId CatalogEntry
  /-- The file that the catalog was read from. -/
  source : Option Path

namespace Catalog

/-- The catalog without assets. -/
def empty : Catalog := ⟨SortedMap.empty, SortedMap.empty, none⟩

/-- How many assets there are. -/
def size (catalog : Catalog) : Nat := catalog.entries.size

/-- The files that the catalog depends on. -/
def dependencies (catalog : Catalog) : List Path := catalog.source.toList

/-- Adds an asset that declares nothing. What the reference's identifier stood for
before is removed. -/
def insert (catalog : Catalog) (reference : String) (id : AssetId) : Catalog :=
  let entries := match catalog.ids.get? reference with
    | some previous => catalog.entries.erase previous
    | none => catalog.entries
  { catalog with
    ids := catalog.ids.insert reference id
    entries := entries.insert id ⟨reference, none, []⟩ }

/-- Sets what the asset with an identifier builds on and declares. -/
def declare (catalog : Catalog) (id : AssetId) (blueprint : Option String)
    (properties : List MaterialProperty) : Catalog :=
  match catalog.entries.get? id with
  | none => catalog
  | some entry =>
      { catalog with
        entries := catalog.entries.insert id
          ⟨entry.reference, blueprint, .ofDeclarations properties⟩ }

/-- Adds an asset under the identifier derived from its reference. -/
def withAsset (catalog : Catalog) (reference : String) : Catalog :=
  catalog.insert reference (.ofReference reference)

/-- Adds a material or a blueprint under the identifier derived from its reference. -/
def withMaterial (catalog : Catalog) (reference : String) (blueprint : Option String)
    (properties : List (String × PropertyValue)) : Catalog :=
  (catalog.withAsset reference).declare (.ofReference reference) blueprint
    (properties.map fun (name, value) => .declared (.ofName name) value)

/-- The identifier of a reference; the empty one stands for no asset. -/
def resolve? (catalog : Catalog) (reference : String) : Option AssetId :=
  if reference.isEmpty then some .invalid else catalog.ids.get? reference

/-- What the blueprint of an asset declares itself. -/
def inherited (catalog : Catalog) (entry : CatalogEntry) : PropertyTable :=
  let blueprint := do
    let id ← catalog.ids.get? (← entry.blueprint)
    catalog.entries.get? id
  (blueprint.map (·.properties)).getD []

/-- The properties of an asset, its blueprint's included. -/
def declared? (catalog : Catalog) (id : AssetId) : Option PropertyTable :=
  (catalog.entries.get? id).map fun entry => (catalog.inherited entry).overlay entry.properties

/-- The answer to who asks for a reference. -/
def resolve (catalog : Catalog) (reference : String) : Except UnresolvedReference AssetId :=
  match catalog.resolve? reference with
  | some id => .ok id
  | none => .error ⟨reference⟩

/-- A catalog's knowledge, which never changes. -/
def context {σ : Type} (catalog : Catalog) : AssetContext σ where
  resolve reference := return catalog.resolve reference
  declared id := return catalog.declared? id

end Catalog

end SceneForge
