import SceneForge.Proofs.Catalog.Loading
import SceneForge.Proofs.Compile.Lights
import SceneForge.Proofs.Material.Overrides
import SceneForge.Proofs.Rotation

/-!
# Numbers of compiled scenes

Where the numbers of a compiled scene come from, and that they are finite except for one way:
transforms, lights and the sun have finite numbers only, whereas the numbers of materials are
checked before they are narrowed, so that an authored number beyond the range of single
precision becomes infinite.
-/

namespace SceneForge

open Binary

section Transforms

theorem Fields.finite_of_transform {fields : Fields} {transform : Transform}
    (read : fields.transform = .ok transform) : transform.Finite := by
  obtain ⟨position, positioned, read⟩ := bind_eq_ok_iff.mp read
  obtain ⟨rotation, rotated, read⟩ := bind_eq_ok_iff.mp read
  obtain ⟨scale, scaled, same⟩ := bind_eq_ok_iff.mp read
  rw [← Except.ok.inj same]
  exact ⟨Fields.finite_of_vector Transform.finite_identity.position positioned,
    Fields.optional_induct Quaternion.Finite Transform.finite_identity.rotation
      (fun _ _ => FieldValue.finite_of_rotation) rotated,
    Fields.finite_of_vector Transform.finite_identity.scale scaled⟩

theorem DescribesTransform.finite {properties : Option Json.Value} {transform : Transform}
    (described : DescribesTransform properties transform) : transform.Finite := by
  cases described with
  | absent => exact Transform.finite_identity
  | authored read => exact Fields.finite_of_transform read

end Transforms

section Materials

variable {σ : Type} {context : AssetContext σ} {fields : Fields} {state last : σ}
  {assets : SourceAssets} {catalog : Catalog}

/-- Where the value of a property was authored: in the catalog, or in the item itself. -/
inductive MaterialProperty.AuthoredAs (assets : SourceAssets) (fields : Fields)
    (property : MaterialProperty) : Json.Value → Prop
  | declared {reference name : String} {declaration : Declaration}
      (declares : assets.Declares reference name declaration)
      (named : property.id = .ofName name)
      (typed : ValueType.ofName? declaration.type = some property.value.type)
      (plain : property.overwritten = false) : AuthoredAs assets fields property declaration.value
  | overridden {overrides : Json.Object} {name : String} {value : Json.Value}
      (set : fields.get? "SetMaterialProperties" = some (.object overrides))
      (listed : (name, value) ∈ overrides) (named : property.id = .ofName name)
      (marked : property.overwritten = true) : AuthoredAs assets fields property value

/-- The numbers of a property are authored ones, narrowed. -/
def MaterialProperty.Authored (assets : SourceAssets) (fields : Fields) (property : MaterialProperty) :
    Prop :=
  property.value.type.IsFloat → ∃ value numbers, property.AuthoredAs assets fields value ∧
    AuthoredValue.components property.value.type.componentCount value = .ok numbers ∧
    List.Forall₂ Double.Narrows numbers property.value.numbers

/-- The properties that a catalog knows have authored numbers. -/
theorem Catalog.authored_of_declared? (listed : assets.Listed catalog) {id : AssetId}
    {table : PropertyTable} {property : MaterialProperty} (known : catalog.declared? id = some table)
    (member : property ∈ table) : property.Authored assets fields := by
  intro isFloat
  obtain ⟨reference, name, declaration, declares, denotes, same⟩ :=
    declares_of_declared? listed known member
  have typed := denotes.type_eq
  generalize property.value = value at denotes typed same isFloat
  subst same
  cases denotes with
  | plain known read =>
      cases known.symm.trans typed
      obtain ⟨numbers, components, narrows⟩ := AuthoredValue.numbers_of_ofJson read isFloat
      exact ⟨_, numbers, .declared declares rfl typed rfl, components, narrows⟩
  | texture => cases isFloat

/-- A value that is read for a property is authored plainly, or a texture. -/
theorem asked_propertyValue {type : ValueType} {field : String} {value : Json.Value}
    {read : PropertyValue}
    (reads : asked (context.propertyValue type field value) state = (.ok read, last)) :
    AuthoredValue.ofJson type value = .ok (.plain read) ∨ ∃ id, read = .texture id := by
  obtain ⟨authored, _, found, reads⟩ := asked_bind_eq_ok_iff.mp reads
  rw [asked_lift] at found
  have ofJson := mapError_eq_ok_iff.mp (congrArg Prod.fst found)
  cases authored with
  | plain plain =>
      obtain ⟨rfl, -⟩ := asked_pure_eq_ok_iff.mp reads
      exact .inl ofJson
  | texture reference =>
      obtain ⟨id, _, -, reads⟩ := asked_bind_eq_ok_iff.mp reads
      obtain ⟨rfl, -⟩ := asked_pure_eq_ok_iff.mp reads
      exact .inr ⟨id, rfl⟩

/-- How a property of an item comes about: the catalog declares it, or the item sets it. -/
inductive MaterialProperty.Arises (catalog : Catalog) (fields : Fields)
    (property : MaterialProperty) : Prop
  | declared {id : AssetId} {table : PropertyTable} (known : catalog.declared? id = some table)
      (member : property ∈ table) : Arises catalog fields property
  | overridden {overrides : Json.Object} {name : String} {value : Json.Value} {type : ValueType}
      {before after : Unit} (set : fields.get? "SetMaterialProperties" = some (.object overrides))
      (listed : (name, value) ∈ overrides) (named : property.id = .ofName name)
      (marked : property.overwritten = true)
      (reads : asked ((catalog.context : AssetContext Unit).propertyValue type name value) before =
        (.ok property.value, after)) : Arises catalog fields property

/-- Overriding adds at most one property to those of a table, with a value that is read. -/
theorem mem_of_override {table next : PropertyTable} {name : String} {value : Json.Value}
    {property : MaterialProperty}
    (overrode : asked (context.override table name value) state = (.ok next, last))
    (member : property ∈ next) :
    property ∈ table ∨ property.id = .ofName name ∧ property.overwritten = true ∧
      ∃ type, asked (context.propertyValue type name value) state = (.ok property.value, last) := by
  rw [AssetContext.override.eq_def] at overrode
  split at overrode
  next =>
    obtain ⟨rfl, -⟩ := asked_pure_eq_ok_iff.mp overrode
    exact .inl member
  next index found =>
    split at overrode
    next =>
      obtain ⟨rfl, -⟩ := asked_pure_eq_ok_iff.mp overrode
      exact .inl member
    next replaced present =>
      obtain ⟨made, _, reads, overrode⟩ := asked_bind_eq_ok_iff.mp overrode
      obtain ⟨rfl, rfl⟩ := asked_pure_eq_ok_iff.mp overrode
      rcases List.mem_or_eq_of_mem_set member with kept | rfl
      · exact .inl kept
      · have named := PropertyTable.idAt_of_search_found found
        rw [PropertyTable.idAt, present] at named
        exact .inr ⟨named, rfl, _, reads⟩

/-- Every property that an item has is declared or set. -/
theorem asked_overrides {table : PropertyTable} {state last : Unit}
    (made : asked (fields.overrides (catalog.context : AssetContext Unit)) state =
      (.ok table, last)) : ∀ property ∈ table, property.Arises catalog fields := by
  rcases Fields.overrides_cases made with ⟨-, rfl⟩ | ⟨overrides, material, blueprint, _, set, -, rest⟩
  · exact List.forall_mem_nil _
  rcases rest with ⟨-, -, rfl⟩ | ⟨-, _, _, ⟨declared, looked, rfl⟩, overlaid⟩
  · exact List.forall_mem_nil _
  have answered : catalog.declared? (if material.isValid then material else blueprint) = declared :=
    congrArg Prod.fst looked
  -- The pass over what is set starts from the declared table.
  refine asked_foldlM_induct (fun table => ∀ property ∈ table, property.Arises catalog fields)
    (fun property member => ?_) (fun override listed _ _ _ _ arises overrode property member => ?_)
    overlaid
  · cases table : declared with
    | none =>
        rw [table] at member
        cases member
    | some table =>
        rw [table] at member
        exact .declared (answered.trans table) member
  · rcases mem_of_override overrode member with kept | ⟨named, marked, type, reads⟩
    · exact arises property kept
    · exact .overridden set listed named marked reads

/-- The numbers of the properties that an item has are authored. -/
theorem MaterialProperty.Arises.authored {property : MaterialProperty}
    (known : assets.Listed catalog) (arises : property.Arises catalog fields) :
    property.Authored assets fields := by
  cases arises with
  | declared declared member => exact Catalog.authored_of_declared? known declared member
  | overridden set listed named marked reads =>
      intro isFloat
      rcases asked_propertyValue reads with plain | ⟨id, same⟩
      · have typed := AuthoredValue.type_of_ofJson_plain plain
        rw [typed] at isFloat
        obtain ⟨numbers, components, narrows⟩ := AuthoredValue.numbers_of_ofJson plain isFloat
        rw [← typed] at components
        exact ⟨_, numbers, .overridden set listed named marked, components, narrows⟩
      · rw [same] at isFloat
        cases isFloat

end Materials

/-- The numbers of a payload are finite or, for materials, authored ones, narrowed. -/
def Payload.Numbered (assets : SourceAssets) (fields : Fields) : Payload → Prop
  | .camera | .mesh _ | .skeletonMesh _ _ => True
  | .light lamp => lamp.Finite
  | .sunlight sun => sun.Lawful
  | .material use => ∀ property ∈ use.properties, property.Authored assets fields
  | .unknown _ => False

theorem Extracted.numbered {catalog : Catalog} {assets : SourceAssets} (known : assets.Listed catalog)
    {fields : Fields} {payload : Payload} (extracted : Extracted catalog fields payload) :
    payload.Numbered assets fields := by
  cases extracted with
  | camera | mesh | skeletonMesh => trivial
  | light made => exact (Light.light_eq_ok_iff.mp made).1.finite
  | sunlight made => exact Sunlight.lawful_of_sunlight made
  | material made =>
      obtain ⟨_, _, -, -, overridden, -⟩ := Fields.asked_materialUse_eq_ok (answer_eq_ok_iff.mp made)
      exact fun property member => (asked_overrides overridden property member).authored known

/-- The numbers of a compiled scene. Whatever compiles against a catalog that was read from a
text becomes a scene whose transforms, lights and suns have finite numbers only. Every number
of a material property is an authored finite number, of the catalog or of the item, narrowed
to single precision: it is never NaN, and it is infinite exactly if the authored number is too
large. -/
theorem Compiler.numbers_authored {compiler : Compiler} {listing text : String} {buffer : Bytes}
    (read : Catalog.read listing = .ok compiler.catalog)
    (compiled : compiler.buffer text = .ok buffer) :
    ∃ (assets : SourceAssets) (document : Document) (scene : Scene),
      Catalog.readAssets listing = .ok assets ∧
      Document.read text = .ok document ∧ Scene.decode buffer = .ok scene ∧
      ∀ node ∈ scene.nodes, node.transform.Finite ∧ ∀ item ∈ node.items,
        ∃ source ∈ document.nodes, ∃ name fields, (name, .object fields) ∈ source.items ∧
          item.payload.Numbered assets fields := by
  obtain ⟨assets, listed⟩ : ∃ assets : SourceAssets, Catalog.readAssets listing = .ok assets := by
    obtain ⟨assets, listed, -⟩ := bind_eq_ok_iff.mp read
    exact ⟨assets, mapError_eq_ok_iff.mp listed⟩
  have known : assets.Listed compiler.catalog := by
    rcases Catalog.read_cases listed with ⟨catalog, accepted, -, known, -⟩ | ⟨_, _, _, rejected, -⟩ |
      ⟨_, _, _, rejected, -⟩
    · cases read.symm.trans accepted
      exact known
    · cases read.symm.trans rejected
    · cases read.symm.trans rejected
  obtain ⟨document, parsed, written⟩ := buffer_eq_ok compiled
  obtain ⟨scene, decoded, described⟩ := Writing.document_eq_ok written
  refine ⟨assets, document, scene, listed, parsed, decoded, fun node nodeMember => ⟨?_, ?_⟩⟩
  · obtain ⟨source, -, described⟩ := exists_of_forall₂ described.nodes_described.flip nodeMember
    exact described.transform_described.finite
  · intro item itemMember
    obtain ⟨source, sourceMember, ⟨name, value⟩, member, itemDescribed⟩ :=
      described.exists_item nodeMember itemMember
    obtain ⟨fields, rfl, extracted⟩ := itemDescribed.extracted
    exact ⟨source, sourceMember, name, fields, member, extracted.numbered known⟩

/-- A number of a catalog that is too large for single precision, and infinite in the scene. -/
theorem Compiler.numbers_authored_large :
    let listing := "\x7b\"Assets\":\x7b\"M\":\x7b\"Properties\":\x7b\"X\":" ++
      "\x7b\"ValueType\":\"FLOAT\",\"Value\":1e39\x7d\x7d\x7d\x7d\x7d"
    let text := "\x7b\"Nodes\":[\x7b\"Items\":\x7b\"SkySceneItem\":\x7b\"Material\":\"M\"," ++
      "\"SetMaterialProperties\":\x7b\x7d\x7d\x7d\x7d]\x7d"
    ∃ catalog buffer scene, Catalog.read listing = .ok catalog ∧
      (⟨.standard, catalog, .standard⟩ : Compiler).buffer text = .ok buffer ∧
      Scene.decode buffer = .ok scene ∧
      ∃ node ∈ scene.nodes, node.transform.Finite ∧ ∃ item ∈ node.items,
        item.payload = .material ⟨.ofReference "M", defaultTechnique, .invalid,
          [.declared (.ofName "X") (.float ⟨0x7f800000⟩)]⟩ ∧
        ∃ value x, AuthoredValue.components 1 value = .ok [x] ∧ 2 ^ 128 - 2 ^ 103 ≤ |x.value| := by
  intro listing text
  have infinite : ((Catalog.read listing).toOption.bind fun catalog =>
      ((⟨.standard, catalog, .standard⟩ : Compiler).buffer text).toOption.bind fun buffer =>
        (Scene.decode buffer).toOption).any (fun scene => scene.nodes.any fun node =>
          node.items.any fun item => item.payload = .material ⟨.ofReference "M", defaultTechnique,
            .invalid, [.declared (.ofName "X") (.float ⟨0x7f800000⟩)]⟩) := by
    decide +kernel
  cases read : Catalog.read listing with
  | error error =>
      rw [read] at infinite
      cases infinite
  | ok catalog =>
      rw [read, Except.toOption, Option.bind_some] at infinite
      cases compiled : (⟨.standard, catalog, .standard⟩ : Compiler).buffer text with
      | error error =>
          rw [compiled] at infinite
          cases infinite
      | ok buffer =>
          obtain ⟨assets, document, scene, -, -, decoded, numbered⟩ := numbers_authored read compiled
          rw [compiled, Except.toOption, Option.bind_some, decoded, Except.toOption,
            Option.any_some, List.any_eq_true] at infinite
          obtain ⟨node, nodeMember, infinite⟩ := infinite
          obtain ⟨item, itemMember, infinite⟩ := List.any_eq_true.mp infinite
          have payload := of_decide_eq_true infinite
          obtain ⟨finite, items⟩ := numbered node nodeMember
          obtain ⟨_, -, _, _, -, authored⟩ := items item itemMember
          refine ⟨catalog, buffer, scene, rfl, compiled, decoded, node, nodeMember, finite, item,
            itemMember, payload, ?_⟩
          rw [payload] at authored
          obtain ⟨value, numbers, -, components, narrows⟩ :=
            authored _ (List.mem_singleton_self _) trivial
          cases narrows with
          | cons narrows none =>
              cases none
              refine ⟨value, _, components, not_lt.mp fun small => ?_⟩
              have := narrows.isFinite_iff.mpr small
              revert this
              decide

end SceneForge
