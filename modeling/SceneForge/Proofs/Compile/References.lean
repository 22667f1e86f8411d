import SceneForge.Proofs.Compile.Numbers

/-!
# References of compiled scenes

Which references end up as the identifier that is reserved for "no asset". The empty one does
where it may stand at all, and no reference that a catalog does not list resolves. A listed
reference does exactly if its asset has the reserved identifier, as its own or because its
reference hashes to it: reading a catalog compares identifiers with each other, but not with
the reserved one.
-/

namespace SceneForge

open Text (utf8)

namespace SourceAssets

variable {assets : SourceAssets} {reference : String} {id : AssetId}

/-- The asset with a reference has the reserved identifier: its own, or the derived one. -/
def Reserves (assets : SourceAssets) (reference : String) : Prop :=
  ∃ asset, assets.get? reference = some asset ∧
    (asset.id = some 0xffffffff ∨ asset.id = none ∧ fnv1a (utf8 reference) = 0xffffffff)

/-- An identifier is that of a reference, and the reserved one exactly if the reference is empty
or its asset has it. -/
structure StandsFor (assets : SourceAssets) (reference : String) (id : AssetId) : Prop where
  resolved : assets.resolve? reference = some id
  invalid_iff : id = .invalid ↔ reference = "" ∨ assets.Reserves reference

theorem idFor_eq_invalid_iff {asset : SourceAsset} :
    asset.idFor reference = .invalid ↔
      asset.id = some 0xffffffff ∨ asset.id = none ∧ fnv1a (utf8 reference) = 0xffffffff := by
  rw [SourceAsset.idFor]
  cases asset.id <;> simp [AssetId.invalid, AssetId.ofReference]

theorem hasId_invalid_iff : assets.HasId reference .invalid ↔ assets.Reserves reference := by
  simp only [HasId, Reserves, idFor_eq_invalid_iff]

/-- A reference that is not empty resolves to the identifier of its asset. -/
theorem resolve?_eq_some_iff (named : reference ≠ "") :
    assets.resolve? reference = some id ↔ assets.HasId reference id := by
  rw [resolve?, if_neg (by simpa using named), Option.map_eq_some_iff]
  rfl

theorem resolve?_eq_invalid_iff (named : reference ≠ "") :
    assets.resolve? reference = some .invalid ↔ assets.Reserves reference :=
  (resolve?_eq_some_iff named).trans hasId_invalid_iff

theorem standsFor_of_resolve? (resolved : assets.resolve? reference = some id) :
    assets.StandsFor reference id := by
  refine ⟨resolved, ?_⟩
  by_cases empty : reference = ""
  · subst empty
    cases resolved
    simp
  · rw [or_iff_right empty, ← resolve?_eq_invalid_iff empty, resolved, Option.some.injEq]

/-- At most one asset has the reserved identifier. -/
theorem Distinct.reserves_unique (distinct : assets.Distinct) {other : String}
    (first : assets.Reserves reference) (second : assets.Reserves other) : reference = other :=
  distinct _ _ _ (hasId_invalid_iff.mpr first) (hasId_invalid_iff.mpr second)

end SourceAssets

/-- The identifiers of a mesh stand for authored references. The one of the mesh itself is not
empty; the others are given in order, by an array if there are any. -/
structure Mesh.Referenced (assets : SourceAssets) (fields : Fields) (mesh : Mesh) : Prop where
  id : ∃ reference, fields.get? "Mesh" = some (.string reference) ∧ reference ≠ "" ∧
    assets.StandsFor reference mesh.id
  subMeshMaterials :
    fields.get? "SubMeshMaterials" = none ∧ mesh.subMeshMaterials = [] ∨
      ∃ elements, fields.get? "SubMeshMaterials" = some (.array elements) ∧
        List.Forall₂ (fun element id => ∃ reference, element = .string reference ∧
          assets.StandsFor reference id) elements mesh.subMeshMaterials

/-- A property that is a texture stands for an authored reference. -/
def MaterialProperty.Referenced (assets : SourceAssets) (fields : Fields)
    (property : MaterialProperty) : Prop :=
  ∀ id, property.value = .texture id → ∃ reference,
    property.AuthoredAs assets fields (.string reference) ∧ assets.StandsFor reference id

/-- The meshes, parts of meshes and textures of a payload stand for authored references. -/
def Payload.Referenced (assets : SourceAssets) (fields : Fields) : Payload → Prop
  | .camera | .light _ | .sunlight _ => True
  | .mesh shape | .skeletonMesh _ shape => shape.Referenced assets fields
  | .material use => ∀ property ∈ use.properties, property.Referenced assets fields
  | .unknown _ => False

section Reading

variable {σ : Type} {catalog : Catalog} {assets : SourceAssets} {fields : Fields}
  {field reference : String} {id : AssetId} {state last : σ}

variable (listed : assets.Listed catalog)
include listed

theorem standsFor_of_resolveIn
    (made : asked ((catalog.context : AssetContext σ).resolveIn field reference) state =
      (.ok id, last)) : assets.StandsFor reference id :=
  SourceAssets.standsFor_of_resolve? ((listed.resolve reference).symm.trans (asked_resolveIn made))

/-- A mandatory reference is authored and not empty. -/
theorem asked_mandatoryAsset
    (made : asked (fields.mandatoryAsset field (catalog.context : AssetContext σ)) state =
      (.ok id, last)) :
    ∃ reference, fields.get? field = some (.string reference) ∧ reference ≠ "" ∧
      assets.StandsFor reference id := by
  obtain ⟨text, _, read, made⟩ := asked_bind_eq_ok_iff.mp made
  rw [asked_lift] at read
  have authored : fields.string? field = .ok text := congrArg Prod.fst read
  split at made
  next => cases made
  next => cases made
  next reference nonempty =>
    rw [Fields.string?.eq_def] at authored
    split at authored
    next => cases authored
    next found =>
      cases authored
      refine ⟨reference, found, ?_, standsFor_of_resolveIn listed made⟩
      rintro rfl
      exact nonempty rfl
    next => cases authored

/-- A list of references is authored as an array, or absent. -/
theorem asked_assets {ids : List AssetId}
    (made : asked (fields.assets field (catalog.context : AssetContext σ)) state = (.ok ids, last)) :
    fields.get? field = none ∧ ids = [] ∨
      ∃ elements, fields.get? field = some (.array elements) ∧
        List.Forall₂ (fun element id => ∃ reference, element = .string reference ∧
          assets.StandsFor reference id) elements ids := by
  rw [Fields.assets.eq_def] at made
  split at made
  next absent =>
    obtain ⟨rfl, -⟩ := asked_pure_eq_ok_iff.mp made
    exact .inl ⟨absent, rfl⟩
  next elements found =>
    refine .inr ⟨elements, found, (asked_mapM_eq_ok_iff.mp made).forall₂ ?_⟩
    intro before element id after reads
    split at reads
    next reference => exact ⟨reference, rfl, standsFor_of_resolveIn listed reads⟩
    next => cases reads
  next => cases made

theorem asked_mesh {mesh : Mesh}
    (made : asked (fields.mesh (catalog.context : AssetContext σ)) state = (.ok mesh, last)) :
    mesh.Referenced assets fields := by
  obtain ⟨id, _, mandatory, made⟩ := asked_bind_eq_ok_iff.mp made
  obtain ⟨materials, _, parts, made⟩ := asked_bind_eq_ok_iff.mp made
  obtain ⟨_, _, -, made⟩ := asked_bind_eq_ok_iff.mp made
  obtain ⟨rfl, -⟩ := asked_pure_eq_ok_iff.mp made
  exact ⟨asked_mandatoryAsset listed mandatory, asked_assets listed parts⟩

end Reading

section Textures

variable {σ : Type} {catalog : Catalog} {assets : SourceAssets} {fields : Fields}
  {property : MaterialProperty} {state last : σ}

/-- Only strings are authored as references of textures. -/
theorem AuthoredValue.string_of_ofJson_texture {type : ValueType} {value : Json.Value}
    {reference : String} (read : ofJson type value = .ok (.texture reference)) :
    value = .string reference := by
  cases type_of_ofJson_texture read
  cases value <;> cases read
  rfl

/-- A plain value is no texture. -/
theorem AuthoredValue.ne_texture_of_ofJson_plain {type : ValueType} {value : Json.Value}
    {id : AssetId} : ofJson type value ≠ .ok (.plain (.texture id)) := by
  intro read
  obtain rfl := type_of_ofJson_plain read
  cases value <;> cases read

variable (listed : assets.Listed catalog)
include listed

/-- The textures that a catalog knows are declared as references. -/
theorem Catalog.referenced_of_declared? {id : AssetId} {table : PropertyTable}
    (known : catalog.declared? id = some table) (member : property ∈ table) :
    property.Referenced assets fields := by
  intro texture same
  obtain ⟨reference, name, declaration, declares, denotes, made⟩ :=
    declares_of_declared? listed known member
  have typed := denotes.type_eq
  rw [same] at denotes
  cases denotes with
  | plain _ read => exact absurd read AuthoredValue.ne_texture_of_ofJson_plain
  | @texture _ target _ _ read resolved =>
      refine ⟨target, ?_, SourceAssets.standsFor_of_resolve? resolved⟩
      rw [← AuthoredValue.string_of_ofJson_texture read]
      exact .declared declares (congrArg MaterialProperty.id made) typed
        (congrArg MaterialProperty.overwritten made)

/-- A texture that is read for a property stands for a reference. -/
theorem asked_propertyValue_texture {type : ValueType} {field : String} {value : Json.Value}
    {id : AssetId}
    (reads : asked ((catalog.context : AssetContext σ).propertyValue type field value) state =
      (.ok (.texture id), last)) :
    ∃ reference, value = .string reference ∧ assets.StandsFor reference id := by
  obtain ⟨authored, _, found, reads⟩ := asked_bind_eq_ok_iff.mp reads
  rw [asked_lift] at found
  have ofJson := mapError_eq_ok_iff.mp (congrArg Prod.fst found)
  cases authored with
  | plain plain =>
      obtain ⟨rfl, -⟩ := asked_pure_eq_ok_iff.mp reads
      exact absurd ofJson AuthoredValue.ne_texture_of_ofJson_plain
  | texture reference =>
      obtain ⟨made, _, resolved, reads⟩ := asked_bind_eq_ok_iff.mp reads
      obtain ⟨same, -⟩ := asked_pure_eq_ok_iff.mp reads
      cases same
      exact ⟨reference, AuthoredValue.string_of_ofJson_texture ofJson,
        standsFor_of_resolveIn listed resolved⟩

/-- The textures that an item has stand for references, of the catalog or of the item. -/
theorem MaterialProperty.Arises.referenced (arises : property.Arises catalog fields) :
    property.Referenced assets fields := by
  cases arises with
  | declared known member => exact Catalog.referenced_of_declared? listed known member
  | overridden set overridden named marked reads =>
      intro texture same
      rw [same] at reads
      obtain ⟨reference, rfl, stands⟩ := asked_propertyValue_texture listed reads
      exact ⟨reference, .overridden set overridden named marked, stands⟩

end Textures

theorem Extracted.referenced {catalog : Catalog} {assets : SourceAssets}
    (listed : assets.Listed catalog) {fields : Fields} {payload : Payload}
    (extracted : Extracted catalog fields payload) : payload.Referenced assets fields := by
  cases extracted with
  | camera | light | sunlight => trivial
  | mesh made | skeletonMesh _ made => exact asked_mesh listed (answer_eq_ok_iff.mp made)
  | material made =>
      obtain ⟨_, _, -, -, overridden, -⟩ := Fields.asked_materialUse_eq_ok (answer_eq_ok_iff.mp made)
      exact fun property member => (asked_overrides overridden property member).referenced listed

/-- The references of a compiled scene. In a catalog that was read from a text, a reference that
is not empty resolves to the reserved identifier exactly if it is listed with this identifier,
given or derived, and at most one is. Whatever compiles against the catalog becomes a scene with
the same items, in which every mesh stands for the reference that its item names, which is not
empty, the parts of meshes stand for those that the item lists, and the textures for those that
the catalog or the item sets. So all of these identifiers are the reserved one exactly if the
reference is empty or the one that is listed with it. -/
theorem Compiler.references_resolved {compiler : Compiler} {listing : String}
    (read : Catalog.read listing = .ok compiler.catalog) :
    ∃ assets : SourceAssets, Catalog.readAssets listing = .ok assets ∧
      (∀ reference ≠ "",
        compiler.catalog.resolve? reference = some .invalid ↔ assets.Reserves reference) ∧
      (∀ first second, assets.Reserves first → assets.Reserves second → first = second) ∧
      ∀ text buffer, compiler.buffer text = .ok buffer → ∃ document scene,
        Document.read text = .ok document ∧ Scene.decode buffer = .ok scene ∧
        List.Forall₂ (fun source node => List.Forall₂ (fun authored item =>
          ∃ fields : Fields, authored.2 = .object fields ∧ item.payload.Referenced assets fields)
          source.items node.items) document.nodes scene.nodes := by
  obtain ⟨assets, parsed, distinct, listed⟩ := Catalog.listed_of_read read
  refine ⟨assets, parsed, fun reference named => ?_, fun _ _ => distinct.reserves_unique,
    fun text buffer compiled => ?_⟩
  · rw [listed.resolve]
    exact SourceAssets.resolve?_eq_invalid_iff named
  · obtain ⟨document, parsed, written⟩ := buffer_eq_ok compiled
    obtain ⟨scene, decoded, described⟩ := Writing.document_eq_ok written
    refine ⟨document, scene, parsed, decoded, described.nodes_described.imp fun _ _ described => ?_⟩
    refine described.items_described.imp fun _ _ described => ?_
    obtain ⟨fields, authored, extracted⟩ := described.extracted
    exact ⟨fields, authored, extracted.referenced listed⟩

/-- A scene that is found to be compiled against a catalog is the outcome of all the steps. -/
theorem Compiler.exists_scene_of_any {config : Config} {compressor : Compressor}
    {listing text : String} {holds : Scene → Bool} (found : ((Catalog.read listing).toOption.bind fun catalog =>
      ((⟨config, catalog, compressor⟩ : Compiler).buffer text).toOption.bind fun buffer =>
        (Scene.decode buffer).toOption).any holds) :
    ∃ catalog buffer scene, Catalog.read listing = .ok catalog ∧
      (⟨config, catalog, compressor⟩ : Compiler).buffer text = .ok buffer ∧
      Scene.decode buffer = .ok scene ∧ holds scene := by
  cases read : Catalog.read listing with
  | error error =>
      rw [read] at found
      cases found
  | ok catalog =>
      rw [read, Except.toOption, Option.bind_some] at found
      cases compiled : (⟨config, catalog, compressor⟩ : Compiler).buffer text with
      | error error =>
          rw [compiled] at found
          cases found
      | ok buffer =>
          rw [compiled, Except.toOption, Option.bind_some] at found
          cases decoded : Scene.decode buffer with
          | error error =>
              rw [decoded] at found
              cases found
          | ok scene =>
              rw [decoded] at found
              exact ⟨catalog, buffer, scene, rfl, compiled, decoded, found⟩

/-- An asset that is listed with the reserved identifier: its reference resolves to it, and a mesh
that names the reference is compiled as one without an asset. -/
theorem Compiler.references_resolved_reserved :
    let listing := "\x7b\"Assets\":\x7b\"M\":\x7b\"Id\":4294967295\x7d\x7d\x7d"
    let text := "\x7b\"Nodes\":[\x7b\"Items\":\x7b\"MeshSceneItem\":\x7b\"Mesh\":\"M\"\x7d\x7d\x7d]\x7d"
    ∃ catalog buffer scene, Catalog.read listing = .ok catalog ∧
      (⟨.standard, catalog, .standard⟩ : Compiler).buffer text = .ok buffer ∧
      Scene.decode buffer = .ok scene ∧
      (∃ node ∈ scene.nodes, ∃ item ∈ node.items, item.payload = .mesh ⟨.invalid, []⟩) ∧
      ∃ reference ≠ "", catalog.resolve? reference = some .invalid := by
  intro listing text
  obtain ⟨catalog, buffer, scene, read, compiled, decoded, reserved⟩ :
      ∃ catalog buffer scene, Catalog.read listing = .ok catalog ∧
        (⟨.standard, catalog, .standard⟩ : Compiler).buffer text = .ok buffer ∧
        Scene.decode buffer = .ok scene ∧ scene.nodes.any fun node =>
          node.items.any fun item => item.payload = .mesh ⟨.invalid, []⟩ :=
    exists_scene_of_any (by decide +kernel)
  obtain ⟨node, nodeMember, reserved⟩ := List.any_eq_true.mp reserved
  obtain ⟨item, itemMember, reserved⟩ := List.any_eq_true.mp reserved
  have payload := of_decide_eq_true reserved
  refine ⟨catalog, buffer, scene, read, compiled, decoded,
    ⟨node, nodeMember, item, itemMember, payload⟩, ?_⟩
  obtain ⟨assets, -, resolves, -, references⟩ :=
    @references_resolved ⟨.standard, catalog, .standard⟩ listing read
  obtain ⟨document, _, -, same, nodes⟩ := references text buffer compiled
  cases decoded.symm.trans same
  obtain ⟨_, -, items⟩ := exists_of_forall₂ nodes.flip nodeMember
  obtain ⟨_, -, fields, -, referenced⟩ := exists_of_forall₂ items.flip itemMember
  rw [payload] at referenced
  obtain ⟨reference, -, named, stands⟩ := referenced.id
  have reserves := (stands.invalid_iff.mp rfl).resolve_left named
  exact ⟨reference, named, (resolves reference named).mpr reserves⟩

end SceneForge
