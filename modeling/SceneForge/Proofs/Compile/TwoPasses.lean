import SceneForge.Proofs.Compile.Steady
import SceneForge.Proofs.Compile.Written

/-!
# The two passes of writing

The payload of an item is extracted once for its size and once for its bytes, and an asset
context may answer differently the second time. No answers lead to a buffer that cannot be
read back: either both passes agree on the size, or writing fails with exactly this problem
at exactly this item.
-/

namespace SceneForge

variable {σ : Type}

/-- An authored item ends in a size mismatch: both of its extractions succeed, and what
they extract has different sizes. -/
inductive Mismatches (context : AssetContext σ) (kind : ItemKind) (declared written : Nat) :
    σ → String × Json.Value → σ → Prop
  | intro {state last : σ} {name : String} {fields : Fields} {first second : Payload}
      (named : ItemKind.ofName? name = some kind)
      (extracted : Extracts context kind fields state first second last)
      (declared_eq : declared = first.encode.length) (written_eq : written = second.encode.length)
      (differ : declared ≠ written) :
      Mismatches context kind declared written state (name, .object fields) last

/-- Writing a document comes to an item, in a state: the nodes before the item's node, the
transform of its node, and the items before it in the node have been written without error,
and there are not too many nodes in the document or items in the node. -/
inductive Reaches (context : AssetContext σ) (document : Document) (start : σ) :
    String × Json.Value → σ → Prop
  | intro {before after : List SourceNode} {source : SourceNode} {bytes : Bytes}
      {transform : Transform} {earlier later : List (String × Json.Value)}
      {authored : String × Json.Value} {pieces : List Bytes} {between state : σ}
      (nodes_few : document.nodes.length < 2 ^ 32)
      (nodes_eq : document.nodes = before ++ source :: after)
      (nodes_written : asked (Writing.nodes context 0 before) start = (.ok bytes, between))
      (transform_described : DescribesTransform source.properties transform)
      (items_few : source.items.length < 2 ^ 32)
      (items_eq : source.items = earlier ++ authored :: later)
      (items_written : asked (earlier.mapM fun item =>
        Writing.authoredItem context before.length item.1 item.2) between = (.ok pieces, state)) :
      Reaches context document start authored state

namespace Writing

section Errors

variable {context : AssetContext σ} {index : Nat} {state last : σ}

theorem count_eq_error {number : Nat} {error : BufferError}
    (fails : asked (count number : Writing σ Bytes) state = (.error error, last)) :
    error = .format (.tooLarge number) := by
  rw [count] at fails
  split at fails
  next => cases fails
  next =>
    cases fails
    rfl

theorem transform_eq_error {properties : Option Json.Value} {error : BufferError}
    (fails : asked (transform index properties : Writing σ Transform) state = (.error error, last)) :
    ∃ cause, error = .node index cause := by
  match properties with
  | none => cases fails
  | some (.object fields) =>
      rw [transform, asked_lift] at fails
      cases read : Fields.transform fields with
      | ok transform =>
          rw [read] at fails
          cases fails
      | error cause =>
          rw [read] at fails
          cases fails
          exact ⟨cause, rfl⟩
  | some .null | some (.bool _) | some (.number _) | some (.string _) | some (.array _) =>
      cases fails
      exact ⟨_, rfl⟩

/-- An item fails for a size mismatch if both extractions succeed with different sizes. -/
theorem item_mismatch_iff {kind found : ItemKind} {fields : Fields} {declared written : Nat} :
    asked (item context index found fields) state =
        (.error (.sizeMismatch kind declared written), last) ↔
      found = kind ∧ ∃ first second, Extracts context kind fields state first second last ∧
        declared = first.size ∧ written = second.size ∧ declared ≠ written := by
  rw [item, asked_bind_eq_error_iff]
  constructor
  · rintro (fails | ⟨first, between, sized, counting⟩)
    · obtain ⟨cause, wrong⟩ := asked_adapt_eq_error fails
      cases wrong
    · obtain fails | ⟨header, _, counted, filling⟩ := asked_bind_eq_error_iff.mp counting
      · cases count_eq_error fails
      · obtain ⟨few, rfl, rfl⟩ := count_eq_ok_iff.mp counted
        obtain fails | ⟨second, after, filled, checking⟩ := asked_bind_eq_error_iff.mp filling
        · obtain ⟨cause, wrong⟩ := asked_adapt_eq_error fails
          cases wrong
        · rw [payload, asked_adapt_eq_ok_iff] at sized filled
          dsimp only at checking
          rw [Payload.length_encode] at checking
          split at checking
          next differ =>
            cases checking
            exact ⟨rfl, first, second, .intro sized few filled, rfl, rfl, Ne.symm differ⟩
          next => cases checking
  · rintro ⟨rfl, first, second, ⟨sized, few, filled⟩, rfl, rfl, differ⟩
    refine .inr ⟨first, _, asked_adapt_eq_ok_iff.mpr sized, asked_bind_eq_error_iff.mpr (.inr ?_)⟩
    refine ⟨_, _, count_eq_ok_iff.mpr ⟨few, rfl, rfl⟩, asked_bind_eq_error_iff.mpr (.inr ?_)⟩
    refine ⟨second, _, asked_adapt_eq_ok_iff.mpr filled, ?_⟩
    dsimp only
    rw [Payload.length_encode, if_pos (Ne.symm differ)]
    rfl

theorem authoredItem_mismatch_iff {kind : ItemKind} {name : String} {value : Json.Value}
    {declared written : Nat} :
    asked (authoredItem context index name value) state =
        (.error (.sizeMismatch kind declared written), last) ↔
      Mismatches context kind declared written state (name, value) last := by
  constructor
  · intro fails
    rw [authoredItem] at fails
    split at fails
    next => cases fails
    next found named =>
      split at fails
      next fields =>
        obtain ⟨rfl, first, second, extracted, rfl, rfl, differ⟩ := item_mismatch_iff.mp fails
        exact .intro named extracted first.length_encode.symm second.length_encode.symm differ
      next => cases fails
  · rintro ⟨named, extracted, rfl, rfl, differ⟩
    simp only [authoredItem, named]
    exact item_mismatch_iff.mpr ⟨rfl, _, _, extracted, Payload.length_encode _,
      Payload.length_encode _, differ⟩

/-- A node fails for a size mismatch at one of its items, after those before it have been
written. -/
theorem node_mismatch_iff {kind : ItemKind} {source : SourceNode} {declared written : Nat} :
    asked (node context index source) state =
        (.error (.sizeMismatch kind declared written), last) ↔
      ∃ transform earlier authored later pieces between,
        DescribesTransform source.properties transform ∧ source.items.length < 2 ^ 32 ∧
        source.items = earlier ++ authored :: later ∧
        asked (earlier.mapM fun item => authoredItem context index item.1 item.2) state =
          (.ok pieces, between) ∧
        Mismatches context kind declared written between authored last := by
  rw [node, asked_bind_eq_error_iff]
  constructor
  · rintro (fails | ⟨transform, _, read, counting⟩)
    · obtain ⟨cause, wrong⟩ := transform_eq_error fails
      cases wrong
    · obtain ⟨described, rfl⟩ := transform_eq_ok_iff.mp read
      obtain fails | ⟨header, _, counted, listing⟩ := asked_bind_eq_error_iff.mp counting
      · cases count_eq_error fails
      · obtain ⟨few, rfl, rfl⟩ := count_eq_ok_iff.mp counted
        obtain fails | ⟨pieces, _, -, whole⟩ := asked_bind_eq_error_iff.mp listing
        · obtain ⟨earlier, authored, later, pieces, between, split, listed, failed⟩ :=
            asked_mapM_eq_error_iff.mp fails
          exact ⟨transform, earlier, authored, later, pieces, between, described, few, split,
            listed, authoredItem_mismatch_iff.mp failed⟩
        · cases whole
  · rintro ⟨transform, earlier, authored, later, pieces, between, described, few, split, listed,
      mismatches⟩
    refine .inr ⟨_, _, transform_eq_ok_iff.mpr ⟨described, rfl⟩, ?_⟩
    refine asked_bind_eq_error_iff.mpr (.inr ⟨_, _, count_eq_ok_iff.mpr ⟨few, rfl, rfl⟩, ?_⟩)
    refine asked_bind_eq_error_iff.mpr (.inl (asked_mapM_eq_error_iff.mpr ?_))
    exact ⟨earlier, authored, later, pieces, between, split, listed,
      authoredItem_mismatch_iff.mpr mismatches⟩

/-- Writing nodes fails at the first node for which it fails. -/
theorem nodes_eq_error_iff {sources : List SourceNode} {error : BufferError} :
    asked (nodes context index sources) state = (.error error, last) ↔
      ∃ before source after bytes between, sources = before ++ source :: after ∧
        asked (nodes context index before) state = (.ok bytes, between) ∧
        asked (node context (index + before.length) source) between = (.error error, last) := by
  induction sources generalizing index state with
  | nil =>
      constructor
      · intro fails
        cases fails
      · rintro ⟨before, source, after, bytes, between, split, -⟩
        cases before <;> cases split
  | cons first sources ih =>
      rw [nodes, asked_bind_eq_error_iff]
      constructor
      · rintro (fails | ⟨bytes, between, firstWritten, rest⟩)
        · exact ⟨[], first, sources, [], state, rfl, rfl, fails⟩
        · obtain fails | ⟨others, _, -, whole⟩ := asked_bind_eq_error_iff.mp rest
          · obtain ⟨before, source, after, content, reached, rfl, written, failed⟩ := ih.mp fails
            refine ⟨first :: before, source, after, bytes ++ content, reached, rfl, ?_, ?_⟩
            · rw [nodes, asked_bind_of_ok firstWritten, asked_bind_of_ok written]
              rfl
            · rwa [List.length_cons, Nat.add_comm before.length, ← Nat.add_assoc]
          · cases whole
      · rintro ⟨before, source, after, bytes, between, split, written, failed⟩
        cases before with
        | nil =>
            cases split
            cases written
            exact .inl failed
        | cons _ before =>
            cases split
            rw [nodes] at written
            obtain ⟨content, reached, firstWritten, rest⟩ := asked_bind_eq_ok_iff.mp written
            obtain ⟨others, _, othersWritten, whole⟩ := asked_bind_eq_ok_iff.mp rest
            obtain ⟨rfl, rfl⟩ := asked_pure_eq_ok_iff.mp whole
            rw [List.length_cons, Nat.add_comm before.length, ← Nat.add_assoc] at failed
            refine .inr ⟨_, _, firstWritten, asked_bind_eq_error_iff.mpr (.inl (ih.mpr ?_))⟩
            exact ⟨before, source, after, others, _, rfl, othersWritten, failed⟩

/-- A document fails for a size mismatch at an item that writing comes to. -/
theorem document_mismatch_iff {document : Document} {kind : ItemKind} {declared written : Nat} :
    asked (Writing.document context document) state =
        (.error (.sizeMismatch kind declared written), last) ↔
      ∃ authored reached, Reaches context document state authored reached ∧
        Mismatches context kind declared written reached authored last := by
  rw [Writing.document, asked_bind_eq_error_iff]
  constructor
  · rintro (fails | ⟨header, _, counted, listing⟩)
    · cases count_eq_error fails
    · obtain ⟨few, rfl, rfl⟩ := count_eq_ok_iff.mp counted
      obtain fails | ⟨content, _, -, whole⟩ := asked_bind_eq_error_iff.mp listing
      · obtain ⟨before, source, after, bytes, between, split, nodesWritten, failed⟩ :=
          nodes_eq_error_iff.mp fails
        rw [Nat.zero_add] at failed
        obtain ⟨transform, earlier, authored, later, pieces, reached, described, itemsFew,
          itemsSplit, listed, mismatches⟩ := node_mismatch_iff.mp failed
        exact ⟨authored, reached,
          .intro few split nodesWritten described itemsFew itemsSplit listed, mismatches⟩
      · cases whole
  · rintro ⟨authored, reached, ⟨few, split, nodesWritten, described, itemsFew, itemsSplit, listed⟩,
      mismatches⟩
    refine .inr ⟨_, _, count_eq_ok_iff.mpr ⟨few, rfl, rfl⟩, ?_⟩
    refine asked_bind_eq_error_iff.mpr (.inl (nodes_eq_error_iff.mpr ?_))
    refine ⟨_, _, _, _, _, split, nodesWritten, ?_⟩
    rw [Nat.zero_add]
    exact node_mismatch_iff.mpr ⟨_, _, _, _, _, _, described, itemsFew, itemsSplit, listed,
      mismatches⟩

end Errors

end Writing

section Sizes

variable {context : AssetContext σ} {kind : ItemKind} {fields : Fields} {state last : σ}
  {first second : Payload}

/-- What is extracted for a kind that uses a material is the use of one. -/
theorem ItemKind.exists_material {payload : Payload} (uses : TypeId.usesMaterial kind.typeId)
    (extracted : asked (kind.extract fields context) state = (.ok payload, last)) :
    ∃ use, payload = .material use := by
  cases kind with
  | camera => exact absurd uses (by decide)
  | light => exact absurd uses (by decide)
  | sunlight => exact absurd uses (by decide)
  | mesh => exact absurd uses (by decide)
  | skeletonMesh => exact absurd uses (by decide)
  | sky | volume | grass | terrain | particles =>
      obtain ⟨use, _, -, made⟩ := asked_bind_eq_ok_iff.mp extracted
      exact ⟨use, (asked_pure_eq_ok_iff.mp made).1⟩

/-- The two payloads of an item with a material differ in size exactly if their lists of
properties differ in length. -/
theorem Extracts.size_ne_iff (extracted : Extracts context kind fields state first second last)
    (uses : TypeId.usesMaterial kind.typeId) :
    ∃ use other : MaterialUse, first = .material use ∧ second = .material other ∧
      (first.encode.length ≠ second.encode.length ↔
        use.properties.length ≠ other.properties.length) := by
  cases extracted with
  | intro sized _ filled =>
      obtain ⟨use, rfl⟩ := ItemKind.exists_material uses sized
      obtain ⟨other, rfl⟩ := ItemKind.exists_material uses filled
      refine ⟨use, other, rfl, rfl, ?_⟩
      simp only [Payload.length_encode, Payload.size, PropertyRecord.size]
      omega

/-- Among the states of a context that answers consistently no item ends in a mismatch. -/
theorem AssetContext.Steady.not_mismatches {states : σ → Prop} (steady : context.Steady states)
    (inside : states state) {declared written : Nat} {authored : String × Json.Value} :
    ¬Mismatches context kind declared written state authored last := by
  rintro ⟨-, ⟨sized, -, filled⟩, rfl, rfl, differ⟩
  have between := (steady.extract _ _).stays inside sized
  cases (steady.extract _ _).same inside between sized filled
  exact differ rfl

/-- Writing never leaves the states of a context that answers consistently. -/
theorem AssetContext.Steady.reached {states : σ → Prop} (steady : context.Steady states)
    {document : Document} (inside : states state) {authored : String × Json.Value} {reached : σ}
    (reaches : Reaches context document state authored reached) : states reached := by
  cases reaches with
  | intro _ _ nodes_written _ _ _ items_written =>
      have between := (steady.nodes 0 _).stays inside nodes_written
      refine (Steadily.mapM fun item => ?_).stays between items_written
      exact steady.authoredItem _ item.1 item.2

end Sizes

/-- Writing in two passes is consistent whatever the context answers. If it succeeds, the
buffer is that of a scene which it decodes to, every payload is the one that was extracted
second, and the size in front of it is its length. It fails for a size mismatch exactly at
an item that it comes to, both extractions of which succeed with the sizes that the problem
names; for an item with a material this means that the lists of properties differ in length.
If the context answers consistently it never does. -/
theorem document_two_passes (context : AssetContext σ) (document : Document) (start : σ) :
    (∀ buffer last, asked (Writing.document context document) start = (.ok buffer, last) →
      ∃ scene, WritesScene context start document scene last ∧ buffer = scene.encode ∧
        Scene.decode buffer = .ok scene ∧
        ∀ node ∈ scene.nodes, ∀ item ∈ node.items, item.payload.encode.length < 2 ^ 32 ∧
          item.encode = Bytes.ofUInt32 item.typeId.raw ++ encodeLength item.payload.encode ++
            item.payload.encode) ∧
    (∀ kind declared written last,
      asked (Writing.document context document) start =
          (.error (.sizeMismatch kind declared written), last) ↔
        ∃ authored reached, Reaches context document start authored reached ∧
          Mismatches context kind declared written reached authored last) ∧
    (∀ kind fields state first second last, TypeId.usesMaterial kind.typeId →
      Extracts context kind fields state first second last →
      ∃ use other : MaterialUse, first = .material use ∧ second = .material other ∧
        (first.encode.length ≠ second.encode.length ↔
          use.properties.length ≠ other.properties.length)) ∧
    ∀ states, context.Steady states → states start → ∀ kind declared written last,
      asked (Writing.document context document) start ≠
        (.error (.sizeMismatch kind declared written), last) := by
  refine ⟨?_, fun _ _ _ _ => Writing.document_mismatch_iff, ?_, ?_⟩
  · intro buffer last written
    obtain ⟨scene, writes, rfl⟩ := Writing.document_eq_ok_iff.mp written
    have encodable := writes.encodable
    refine ⟨scene, writes, rfl, Scene.decode_encode encodable, ?_⟩
    intro node nodeMember item itemMember
    have fits := ((encodable.nodes_encodable node nodeMember).items_encodable item itemMember).size_lt
    rw [← Payload.length_encode] at fits
    exact ⟨fits, item.bytes_raw.symm⟩
  · intro kind fields state first second last uses extracted
    exact extracted.size_ne_iff uses
  · intro states steady inside kind declared written last fails
    obtain ⟨authored, reached, reaches, mismatches⟩ := Writing.document_mismatch_iff.mp fails
    exact steady.not_mismatches (steady.reached inside reaches) mismatches

/-- A context that declares one more property each time it is asked, and a sky that sets
none of them. -/
theorem document_two_passes_sky :
    let context : AssetContext Nat :=
      { resolve := fun _ => return .ok ⟨7⟩
        declared := fun id count =>
          (some (List.replicate count (.declared ⟨id.raw⟩ (.boolean true))), count + 1) }
    let sky : String × Json.Value := ("SkySceneItem",
      .object [("Material", .string "a"), ("SetMaterialProperties", .object [])])
    asked (Writing.document context ⟨[⟨none, [sky]⟩]⟩) 0 =
      (.error (.sizeMismatch .sky 16 40), 2) := by
  intro context sky
  refine ((document_two_passes context ⟨[⟨none, [sky]⟩]⟩ 0).2.1 .sky 16 40 2).mpr ⟨sky, 0, ?_, ?_⟩
  · have few : [sky].length < 2 ^ 32 := by decide
    exact @Reaches.intro _ context ⟨[⟨none, [sky]⟩]⟩ 0 [] [] ⟨none, [sky]⟩ [] .identity [] [] sky []
      0 0 few rfl rfl .absent few rfl rfl
  · exact .intro (by decide) (.intro rfl (by decide) rfl) rfl rfl (by decide)

end SceneForge
