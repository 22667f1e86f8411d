import SceneForge.Compile.Compiler
import SceneForge.Proofs.Material.Overrides
import SceneForge.Proofs.Scene.Encoding

/-!
# Scene buffers of documents

What a document says a scene is, and that the buffer that is written for a document
is that of exactly such a scene. Sizes and counts are written before what they measure;
they are right because writing fails where they would not be. This holds whatever the
asset context answers, also if it changes its mind between the two extractions of an item.
-/

namespace SceneForge

/-- An item is what an authored one says: its type is that of the name, and its payload
is the one that was extracted from the fields. -/
inductive DescribesItem (catalog : Catalog) : String × Json.Value → Item → Prop
  | intro {name : String} {kind : ItemKind} {fields : Fields} {payload : Payload}
      (named : ItemKind.ofName? name = some kind)
      (extracted : answer (kind.extract fields (catalog.context : AssetContext Unit)) = .ok payload) :
      DescribesItem catalog (name, .object fields) ⟨.ofName name, payload⟩

/-- A transform is the one that was read from a node's properties, if there are any. -/
inductive DescribesTransform : Option Json.Value → Transform → Prop
  | absent : DescribesTransform none .identity
  | authored {fields : Fields} {transform : Transform}
      (read : Fields.transform fields = .ok transform) :
      DescribesTransform (some (.object fields)) transform

/-- A node is what a source node says: items correspond one to one, in order. -/
structure SourceNode.Describes (catalog : Catalog) (source : SourceNode) (node : Node) : Prop where
  transform_described : DescribesTransform source.properties node.transform
  items_described : List.Forall₂ (DescribesItem catalog) source.items node.items

/-- A scene is what a document says: nodes correspond one to one, in order. -/
structure Document.Describes (catalog : Catalog) (document : Document) (scene : Scene) : Prop where
  marker_eq : scene.marker = 42
  nodes_described : List.Forall₂ (SourceNode.Describes catalog) document.nodes scene.nodes

theorem DescribesItem.unique {catalog : Catalog} {authored : String × Json.Value} {item other : Item}
    (described : DescribesItem catalog authored item)
    (otherDescribed : DescribesItem catalog authored other) : item = other := by
  cases described with
  | intro named extracted =>
      cases otherDescribed with
      | intro otherNamed otherExtracted =>
          cases named.symm.trans otherNamed
          cases extracted.symm.trans otherExtracted
          rfl

theorem DescribesTransform.unique {properties : Option Json.Value} {transform other : Transform}
    (described : DescribesTransform properties transform)
    (otherDescribed : DescribesTransform properties other) : transform = other := by
  cases described with
  | absent =>
      cases otherDescribed
      rfl
  | authored read =>
      cases otherDescribed with
      | authored otherRead =>
          cases read.symm.trans otherRead
          rfl

theorem SourceNode.Describes.unique {catalog : Catalog} {source : SourceNode} {node other : Node}
    (described : source.Describes catalog node) (otherDescribed : source.Describes catalog other) :
    node = other := by
  obtain ⟨transform, items⟩ := node
  obtain ⟨otherTransform, otherItems⟩ := other
  obtain rfl := described.transform_described.unique otherDescribed.transform_described
  have unique : Relator.RightUnique (DescribesItem catalog) := fun _ _ _ => DescribesItem.unique
  obtain rfl := List.right_unique_forall₂' unique described.items_described
    otherDescribed.items_described
  rfl

/-- A document describes one scene at most. -/
theorem Document.Describes.unique {catalog : Catalog} {document : Document} {scene other : Scene}
    (described : document.Describes catalog scene)
    (otherDescribed : document.Describes catalog other) : scene = other := by
  obtain ⟨marker, nodes⟩ := scene
  obtain ⟨otherMarker, otherNodes⟩ := other
  obtain rfl : marker = otherMarker := described.marker_eq.trans otherDescribed.marker_eq.symm
  have unique : Relator.RightUnique (SourceNode.Describes catalog) :=
    fun _ _ _ => SourceNode.Describes.unique
  obtain rfl := List.right_unique_forall₂' unique described.nodes_described
    otherDescribed.nodes_described
  rfl

variable {σ : Type}

/-- A mesh is made with a list of materials whose length can be written. -/
theorem Fields.length_lt_of_asked_mesh {fields : Fields} {context : AssetContext σ} {state last : σ}
    {mesh : Mesh} (made : asked (fields.mesh context) state = (.ok mesh, last)) :
    mesh.subMeshMaterials.length < 2 ^ 32 := by
  obtain ⟨id, _, -, made⟩ := asked_bind_eq_ok_iff.mp made
  obtain ⟨materials, _, -, made⟩ := asked_bind_eq_ok_iff.mp made
  obtain ⟨_, _, counted, made⟩ := asked_bind_eq_ok_iff.mp made
  obtain ⟨rfl, -⟩ := asked_pure_eq_ok_iff.mp made
  exact asked_requireCountable_eq_ok counted

/-- What is extracted for a kind is spelled by its bytes, as a payload of the kind's
type. -/
theorem ItemKind.encode_spelled {kind : ItemKind} {fields : Fields} {context : AssetContext σ}
    {state last : σ} {payload : Payload}
    (extracted : asked (kind.extract fields context) state = (.ok payload, last)) :
    Payload.Spells kind.typeId payload.encode payload := by
  cases kind with
  | camera =>
      obtain ⟨rfl, -⟩ := asked_pure_eq_ok_iff.mp extracted
      exact ⟨rfl, rfl⟩
  | light =>
      obtain ⟨light, _, -, made⟩ := asked_bind_eq_ok_iff.mp extracted
      obtain ⟨rfl, -⟩ := asked_pure_eq_ok_iff.mp made
      exact ⟨rfl, rfl⟩
  | sunlight =>
      obtain ⟨sunlight, _, -, made⟩ := asked_bind_eq_ok_iff.mp extracted
      obtain ⟨rfl, -⟩ := asked_pure_eq_ok_iff.mp made
      exact ⟨rfl, rfl⟩
  | mesh =>
      obtain ⟨mesh, _, read, made⟩ := asked_bind_eq_ok_iff.mp extracted
      obtain ⟨rfl, -⟩ := asked_pure_eq_ok_iff.mp made
      exact ⟨rfl, rfl, Fields.length_lt_of_asked_mesh read⟩
  | skeletonMesh =>
      obtain ⟨animation, _, -, rest⟩ := asked_bind_eq_ok_iff.mp extracted
      obtain ⟨mesh, _, read, made⟩ := asked_bind_eq_ok_iff.mp rest
      obtain ⟨rfl, -⟩ := asked_pure_eq_ok_iff.mp made
      exact ⟨rfl, rfl, Fields.length_lt_of_asked_mesh read⟩
  | sky | volume | grass | terrain | particles =>
      obtain ⟨use, _, read, made⟩ := asked_bind_eq_ok_iff.mp extracted
      obtain ⟨rfl, -⟩ := asked_pure_eq_ok_iff.mp made
      obtain ⟨_, _, -, -, -, few⟩ := Fields.asked_materialUse_eq_ok read
      exact ⟨rfl, MaterialUse.encode_spelled few⟩

/-- The type of a kind is that of its name. -/
theorem ItemKind.typeId_of_ofName? {name : String} {kind : ItemKind} (named : ofName? name = some kind) :
    kind.typeId = .ofName name := by
  rw [ofName?, Option.filter_eq_some_iff, beq_iff_eq] at named
  rw [typeId, named.2]

/-- The two extractions of an item's payload, from one state to another: the first for the
size in the item's header and, once this is found to fit, the second for the bytes. -/
inductive Extracts (context : AssetContext σ) (kind : ItemKind) (fields : Fields) :
    σ → Payload → Payload → σ → Prop
  | intro {state between last : σ} {first second : Payload}
      (sized : asked (kind.extract fields context) state = (.ok first, between))
      (size_lt : first.size < 2 ^ 32)
      (filled : asked (kind.extract fields context) between = (.ok second, last)) :
      Extracts context kind fields state first second last

/-- An item is what is written for an authored one: its payload is the one that was
extracted second, and the first one had the same size. -/
inductive WritesItem (context : AssetContext σ) : σ → String × Json.Value → Item → σ → Prop
  | intro {state last : σ} {name : String} {kind : ItemKind} {fields : Fields}
      {first second : Payload} (named : ItemKind.ofName? name = some kind)
      (extracted : Extracts context kind fields state first second last)
      (size_eq : first.size = second.size) :
      WritesItem context state (name, .object fields) ⟨.ofName name, second⟩ last

/-- A node is what is written for a source node: its items are written one after another. -/
structure WritesNode (context : AssetContext σ) (state : σ) (source : SourceNode) (node : Node)
    (last : σ) : Prop where
  transform_described : DescribesTransform source.properties node.transform
  count_lt : source.items.length < 2 ^ 32
  items_written : Threads (WritesItem context) state source.items node.items last

/-- A scene is what is written for a document: its nodes are written one after another. -/
structure WritesScene (context : AssetContext σ) (state : σ) (document : Document) (scene : Scene)
    (last : σ) : Prop where
  marker_eq : scene.marker = 42
  count_lt : document.nodes.length < 2 ^ 32
  nodes_written : Threads (WritesNode context) state document.nodes scene.nodes last

section Encodable

variable {context : AssetContext σ} {state last : σ}

theorem WritesItem.encodable {authored : String × Json.Value} {item : Item}
    (writes : WritesItem context state authored item last) : item.Encodable := by
  cases writes with
  | intro named extracted size_eq =>
      cases extracted with
      | intro _ size_lt filled =>
          rw [size_eq] at size_lt
          refine ⟨size_lt, ?_⟩
          rw [← ItemKind.typeId_of_ofName? named]
          exact ItemKind.encode_spelled filled

theorem WritesNode.encodable {source : SourceNode} {node : Node}
    (writes : WritesNode context state source node last) : node.Encodable := by
  refine ⟨?_, writes.items_written.forall_mem WritesItem.encodable⟩
  rw [writes.items_written.length_eq]
  exact writes.count_lt

/-- Whatever is written for a document can be read back. -/
theorem WritesScene.encodable {document : Document} {scene : Scene}
    (writes : WritesScene context state document scene last) : scene.Encodable := by
  refine ⟨?_, writes.nodes_written.forall_mem WritesNode.encodable⟩
  rw [writes.nodes_written.length_eq]
  exact writes.count_lt

end Encodable

namespace Writing

variable {context : AssetContext σ} {index : Nat} {state last : σ}

theorem count_eq_ok_iff {number : Nat} {bytes : Bytes} :
    asked (count number : Writing σ Bytes) state = (.ok bytes, last) ↔
      number < 2 ^ 32 ∧ bytes = Bytes.ofUInt32 (UInt32.ofNat number) ∧ last = state := by
  rw [count]
  split
  next few => rw [asked_pure_eq_ok_iff, and_iff_right few]
  next many =>
    constructor
    · intro fails
      cases fails
    · rintro ⟨few, -⟩
      exact absurd few many

/-- The transform that is written is the one that is described. -/
theorem transform_eq_ok_iff {properties : Option Json.Value} {result : Transform} :
    asked (transform index properties : Writing σ Transform) state = (.ok result, last) ↔
      DescribesTransform properties result ∧ last = state := by
  match properties with
  | none =>
      rw [transform, asked_pure_eq_ok_iff]
      constructor
      · rintro ⟨rfl, rfl⟩
        exact ⟨.absent, rfl⟩
      · rintro ⟨described, rfl⟩
        cases described
        exact ⟨rfl, rfl⟩
  | some (.object fields) =>
      rw [transform, asked_lift, Prod.mk.injEq, mapError_eq_ok_iff, @eq_comm _ state]
      refine and_congr_left fun _ => ⟨.authored, fun described => ?_⟩
      cases described with
      | authored read => exact read
  | some .null | some (.bool _) | some (.number _) | some (.string _) | some (.array _) =>
      constructor
      · intro fails
        cases fails
      · rintro ⟨described, -⟩
        cases described

/-- An item is written as the type, the size and the bytes of the payload that is extracted
second, if the one that is extracted first has the same size. -/
theorem item_eq_ok_iff {kind : ItemKind} {fields : Fields} {bytes : Bytes} :
    asked (item context index kind fields) state = (.ok bytes, last) ↔
      ∃ first second, Extracts context kind fields state first second last ∧
        first.size = second.size ∧ bytes = Item.encode ⟨kind.typeId, second⟩ := by
  rw [item, asked_bind_eq_ok_iff]
  constructor
  · rintro ⟨first, between, sized, counting⟩
    obtain ⟨header, _, counted, filling⟩ := asked_bind_eq_ok_iff.mp counting
    obtain ⟨few, rfl, rfl⟩ := count_eq_ok_iff.mp counted
    obtain ⟨second, after, filled, written⟩ := asked_bind_eq_ok_iff.mp filling
    rw [payload, asked_adapt_eq_ok_iff] at sized filled
    dsimp only at written
    rw [Payload.length_encode] at written
    split at written
    next => cases written
    next same =>
      rw [Decidable.not_not] at same
      obtain ⟨rfl, rfl⟩ := asked_pure_eq_ok_iff.mp written
      refine ⟨first, second, .intro sized few filled, same.symm, ?_⟩
      rw [Item.encode, same]
  · rintro ⟨first, second, ⟨sized, few, filled⟩, same, rfl⟩
    refine ⟨first, _, asked_adapt_eq_ok_iff.mpr sized, asked_bind_eq_ok_iff.mpr ?_⟩
    refine ⟨_, _, count_eq_ok_iff.mpr ⟨few, rfl, rfl⟩, asked_bind_eq_ok_iff.mpr ?_⟩
    refine ⟨second, _, asked_adapt_eq_ok_iff.mpr filled, ?_⟩
    dsimp only
    rw [Payload.length_encode, if_neg (not_not_intro same.symm), same]
    rfl

/-- An authored item is written as the item that is made of it. -/
theorem authoredItem_eq_ok_iff {name : String} {value : Json.Value} {bytes : Bytes} :
    asked (authoredItem context index name value) state = (.ok bytes, last) ↔
      ∃ item, WritesItem context state (name, value) item last ∧ bytes = item.encode := by
  constructor
  · intro written
    rw [authoredItem] at written
    split at written
    next => cases written
    next kind named =>
      split at written
      next fields =>
        obtain ⟨first, second, extracted, same, rfl⟩ := item_eq_ok_iff.mp written
        refine ⟨_, .intro named extracted same, ?_⟩
        rw [ItemKind.typeId_of_ofName? named]
      next => cases written
  · rintro ⟨_, ⟨named, extracted, same⟩, rfl⟩
    simp only [authoredItem, named]
    refine item_eq_ok_iff.mpr ⟨_, _, extracted, same, ?_⟩
    rw [ItemKind.typeId_of_ofName? named]

/-- A source node is written as the node that is made of it. -/
theorem node_eq_ok_iff {source : SourceNode} {bytes : Bytes} :
    asked (node context index source) state = (.ok bytes, last) ↔
      ∃ node, WritesNode context state source node last ∧ bytes = node.encode := by
  have items {pieces : List Bytes} {before after : σ} :
      asked (source.items.mapM fun authored => authoredItem context index authored.1 authored.2)
          before = (.ok pieces, after) ↔
        ∃ items, Threads (WritesItem context) before source.items items after ∧
          pieces = items.map Item.encode := by
    simp only [asked_mapM_eq_ok_iff, authoredItem_eq_ok_iff]
    exact Threads.exists_map_iff
  rw [node, asked_bind_eq_ok_iff]
  constructor
  · rintro ⟨transform, _, read, counting⟩
    obtain ⟨described, rfl⟩ := transform_eq_ok_iff.mp read
    obtain ⟨number, _, counted, listing⟩ := asked_bind_eq_ok_iff.mp counting
    obtain ⟨few, rfl, rfl⟩ := count_eq_ok_iff.mp counted
    obtain ⟨pieces, after, listed, written⟩ := asked_bind_eq_ok_iff.mp listing
    obtain ⟨made, threads, rfl⟩ := items.mp listed
    obtain ⟨rfl, rfl⟩ := asked_pure_eq_ok_iff.mp written
    refine ⟨⟨transform, made⟩, ⟨described, few, threads⟩, ?_⟩
    rw [Node.encode, encodeLength, threads.length_eq, List.flatMap_def]
  · rintro ⟨made, ⟨described, few, threads⟩, rfl⟩
    refine ⟨_, _, transform_eq_ok_iff.mpr ⟨described, rfl⟩, asked_bind_eq_ok_iff.mpr ?_⟩
    refine ⟨_, _, count_eq_ok_iff.mpr ⟨few, rfl, rfl⟩, asked_bind_eq_ok_iff.mpr ?_⟩
    refine ⟨_, _, items.mpr ⟨_, threads, rfl⟩, asked_pure_eq_ok_iff.mpr ⟨?_, rfl⟩⟩
    rw [Node.encode, encodeLength, threads.length_eq, List.flatMap_def]

/-- Source nodes are written as the nodes that are made of them. -/
theorem nodes_eq_ok_iff {sources : List SourceNode} {bytes : Bytes} :
    asked (nodes context index sources) state = (.ok bytes, last) ↔
      ∃ nodes, Threads (WritesNode context) state sources nodes last ∧
        bytes = nodes.flatMap Node.encode := by
  induction sources generalizing index state bytes with
  | nil =>
      rw [nodes, asked_pure_eq_ok_iff]
      constructor
      · rintro ⟨rfl, rfl⟩
        exact ⟨[], .nil, rfl⟩
      · rintro ⟨made, threads, rfl⟩
        cases threads
        exact ⟨rfl, rfl⟩
  | cons source sources ih =>
      rw [nodes, asked_bind_eq_ok_iff]
      constructor
      · rintro ⟨first, between, firstWritten, rest⟩
        obtain ⟨others, _, othersWritten, whole⟩ := asked_bind_eq_ok_iff.mp rest
        obtain ⟨rfl, rfl⟩ := asked_pure_eq_ok_iff.mp whole
        obtain ⟨node, made, rfl⟩ := node_eq_ok_iff.mp firstWritten
        obtain ⟨nodes, threads, rfl⟩ := ih.mp othersWritten
        exact ⟨node :: nodes, .cons made threads, rfl⟩
      · rintro ⟨made, threads, rfl⟩
        cases threads with
        | cons first rest =>
            refine ⟨_, _, node_eq_ok_iff.mpr ⟨_, first, rfl⟩, asked_bind_eq_ok_iff.mpr ?_⟩
            exact ⟨_, _, ih.mpr ⟨_, rest, rfl⟩, asked_pure_eq_ok_iff.mpr ⟨rfl, rfl⟩⟩

/-- A document is written as the scene that is made of it. -/
theorem document_eq_ok_iff {document : Document} {bytes : Bytes} :
    asked (Writing.document context document) state = (.ok bytes, last) ↔
      ∃ scene, WritesScene context state document scene last ∧ bytes = scene.encode := by
  rw [Writing.document, asked_bind_eq_ok_iff]
  constructor
  · rintro ⟨number, _, counted, listing⟩
    obtain ⟨few, rfl, rfl⟩ := count_eq_ok_iff.mp counted
    obtain ⟨content, _, nodesWritten, written⟩ := asked_bind_eq_ok_iff.mp listing
    obtain ⟨rfl, rfl⟩ := asked_pure_eq_ok_iff.mp written
    obtain ⟨made, threads, rfl⟩ := nodes_eq_ok_iff.mp nodesWritten
    refine ⟨⟨Scene.standardMarker, made⟩, ⟨rfl, few, threads⟩, ?_⟩
    rw [Scene.encode, encodeLength, threads.length_eq]
  · rintro ⟨⟨marker, made⟩, ⟨marked, few, threads⟩, rfl⟩
    refine ⟨_, _, count_eq_ok_iff.mpr ⟨few, rfl, rfl⟩, asked_bind_eq_ok_iff.mpr ?_⟩
    refine ⟨_, _, nodes_eq_ok_iff.mpr ⟨_, threads, rfl⟩, asked_pure_eq_ok_iff.mpr ⟨?_, rfl⟩⟩
    have standard : marker = Scene.standardMarker := marked
    rw [Scene.encode, encodeLength, threads.length_eq, standard]

end Writing

section Catalogs

variable {catalog : Catalog} {state last : Unit}

/-- What is written with the knowledge of a catalog is what is described. -/
theorem WritesItem.describes {authored : String × Json.Value} {item : Item}
    (writes : WritesItem catalog.context state authored item last) :
    DescribesItem catalog authored item := by
  cases writes with
  | intro named extracted _ =>
      cases extracted with
      | intro _ _ filled => exact .intro named (answer_eq_ok_iff.mpr filled)

theorem WritesNode.describes {source : SourceNode} {node : Node}
    (writes : WritesNode catalog.context state source node last) : source.Describes catalog node :=
  ⟨writes.transform_described, writes.items_written.forall₂ WritesItem.describes⟩

theorem WritesScene.describes {document : Document} {scene : Scene}
    (writes : WritesScene catalog.context state document scene last) :
    document.Describes catalog scene :=
  ⟨writes.marker_eq, writes.nodes_written.forall₂ WritesNode.describes⟩

/-- The buffer that is written for a document decodes to a scene that the document
describes. -/
theorem Writing.document_eq_ok {document : Document} {bytes : Bytes}
    (written : answer (Writing.document (catalog.context : AssetContext Unit) document) =
      .ok bytes) :
    ∃ scene, Scene.decode bytes = .ok scene ∧ document.Describes catalog scene := by
  obtain ⟨scene, writes, rfl⟩ := document_eq_ok_iff.mp (answer_eq_ok_iff.mp written)
  exact ⟨scene, Scene.decode_encode writes.encodable, writes.describes⟩

end Catalogs

end SceneForge
