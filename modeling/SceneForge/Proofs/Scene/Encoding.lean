import SceneForge.Proofs.Scene.Acceptance

/-!
# Scenes that can be written

How many bytes a payload has is what `Payload.size` says before it is written. A scene
whose counts and sizes fit 32 bits, and whose payloads are of their items' types, is
decoded from its bytes.
-/

namespace SceneForge

theorem MaterialProperty.length_encode (property : MaterialProperty) :
    property.encode.length = PropertyRecord.size :=
  PropertyRecord.length_encode property.toRecord

@[simp] theorem MaterialUse.length_encode (use : MaterialUse) :
    use.encode.length = 16 + PropertyRecord.size * use.properties.length := by
  simp only [encode, List.length_append, Bytes.length_ofUInt32, length_encodeLength,
    List.length_flatMap, MaterialProperty.length_encode, List.map_const', List.sum_replicate_nat,
    Nat.mul_comm PropertyRecord.size]

/-- A payload is as long as its size says. -/
theorem Payload.length_encode (payload : Payload) : payload.encode.length = payload.size := by
  cases payload with
  | camera => rfl
  | light content => exact Light.length_encode content
  | sunlight content => exact Sunlight.length_encode content
  | mesh content => exact Mesh.length_encode content
  | skeletonMesh animation content =>
      simp only [encode, size, skeletonSize, meshSize, List.length_append, Bytes.length_ofUInt32,
        Mesh.length_encode]
      omega
  | material content => exact MaterialUse.length_encode content
  | unknown content => rfl

/-- A property is read back from its record. -/
theorem MaterialProperty.ofRecord_toRecord (property : MaterialProperty) :
    ofRecord property.toRecord = .ok property := by
  have marked : ((if property.overwritten then 1 else 0 : UInt8) != 0) = property.overwritten := by
    cases property.overwritten <;> rfl
  rw [ofRecord]
  simp only [toRecord, ValueType.ofCode?_code, PropertyValue.ofWords_toWords, marked]

theorem MaterialUse.encode_spelled {use : MaterialUse} (few : use.properties.length < 2 ^ 32) :
    use.Spelled use.encode := by
  refine ⟨use.properties.map MaterialProperty.toRecord, ?_, by rwa [List.length_map], ?_⟩
  · simp only [encode, encodeLength, List.length_map, List.flatMap_map]
    rfl
  · rw [List.forall₂_map_left_iff, List.forall₂_same]
    exact fun property _ => MaterialProperty.ofRecord_toRecord property

/-- An item can be read back: the size of its payload fits 32 bits, and the bytes of the
payload spell it as one of the item's type. -/
structure Item.Encodable (item : Item) : Prop where
  size_lt : item.payload.size < 2 ^ 32
  payload_spelled : Payload.Spells item.typeId item.payload.encode item.payload

/-- A node can be read back: it has not too many items, and each can. -/
structure Node.Encodable (node : Node) : Prop where
  count_lt : node.items.length < 2 ^ 32
  items_encodable : ∀ item ∈ node.items, item.Encodable

/-- A scene can be read back: it has not too many nodes, and each can. -/
structure Scene.Encodable (scene : Scene) : Prop where
  count_lt : scene.nodes.length < 2 ^ 32
  nodes_encodable : ∀ node ∈ scene.nodes, node.Encodable

/-- An item as it is written. -/
def Item.raw (item : Item) : RawItem := ⟨item.typeId, item.payload.encode⟩

/-- A node as it is written. -/
def Node.raw (node : Node) : RawNode := ⟨node.transform.encode, node.items.map Item.raw⟩

/-- A scene as it is written. -/
def Scene.raw (scene : Scene) : RawScene :=
  ⟨Bytes.ofUInt32 scene.marker, scene.nodes.map Node.raw⟩

theorem Item.bytes_raw (item : Item) : item.raw.bytes = item.encode := by
  rw [RawItem.bytes, raw, encodeLength, Payload.length_encode, encode]

theorem Node.bytes_raw (node : Node) : node.raw.bytes = node.encode := by
  have items : (fun item => RawItem.bytes (Item.raw item)) = Item.encode := funext Item.bytes_raw
  simp only [RawNode.bytes, raw, encode, encodeLength, List.length_map, List.flatMap_map, items]

theorem Scene.bytes_raw (scene : Scene) : scene.raw.bytes = scene.encode := by
  have nodes : (fun node => RawNode.bytes (Node.raw node)) = Node.encode := funext Node.bytes_raw
  simp only [RawScene.bytes, raw, encode, encodeLength, List.length_map, List.flatMap_map, nodes]

theorem Item.Encodable.fits {item : Item} (encodable : item.Encodable) : item.raw.Fits := by
  refine ⟨?_, Payload.fits_of_spells encodable.payload_spelled⟩
  rw [Item.raw, Payload.length_encode]
  exact encodable.size_lt

theorem Node.Encodable.fits {node : Node} (encodable : node.Encodable) : node.raw.Fits := by
  refine ⟨Transform.length_encode node.transform, ?_, ?_⟩
  · rw [Node.raw, List.length_map]
    exact encodable.count_lt
  · exact List.forall_mem_map.mpr fun item member => (encodable.items_encodable item member).fits

theorem Node.Encodable.spells {node : Node} (encodable : node.Encodable) :
    node.raw.Spells node := by
  refine ⟨rfl, ?_⟩
  rw [Node.raw, List.forall₂_map_left_iff, List.forall₂_same]
  exact fun item member => ⟨rfl, (encodable.items_encodable item member).payload_spelled⟩

/-- A scene that can be read back is decoded from its bytes. -/
theorem Scene.decode_encode {scene : Scene} (encodable : scene.Encodable) :
    decode scene.encode = .ok scene := by
  refine decode_eq_ok_iff.mpr ⟨scene.raw, scene.bytes_raw.symm, ⟨?_, ?_, ?_⟩, rfl, ?_⟩
  · exact Bytes.length_ofUInt32 scene.marker
  · rw [raw, List.length_map]
    exact encodable.count_lt
  · exact List.forall_mem_map.mpr fun node member => (encodable.nodes_encodable node member).fits
  · rw [raw, List.forall₂_map_left_iff, List.forall₂_same]
    exact fun node member => (encodable.nodes_encodable node member).spells

end SceneForge
