import SceneForge.Proofs.Scene.Payloads

/-!
# Accepted scene buffers

A scene buffer is accepted exactly if it is a header, a count and so many nodes, each
of which is a transform, a count and so many items, each of which is a type, a length
and as many bytes of payload that fit the type. It can be taken apart in one way only,
and the decoded scene lists what it is made of. Counts and lengths are stored; that
they cannot promise more than the buffer holds is a consequence.
-/

namespace SceneForge

namespace Reader

theorem item_takes : Reader.item.Takes fun bytes item =>
    ∃ raw : RawItem, bytes = raw.bytes ∧ raw.Fits ∧ raw.Spells item := by
  refine (Takes.bind (wordPair_takes rfl) fun pair => (Takes.bytes pair.2.toNat).bind
    fun content => (Takes.lift (Payload.decode ⟨pair.1⟩ content)).bind fun payload =>
      .pure (Item.mk ⟨pair.1⟩ payload)).congr fun bytes item => ?_
  constructor
  · rintro ⟨⟨typeId, size⟩, _, _, rfl, rfl, _, content, _, rfl, ⟨rfl, length⟩, payload, _, _, rfl,
      ⟨rfl, decoded⟩, rfl, rfl⟩
    have spelled := Payload.decode_eq_ok_iff.mp decoded
    refine ⟨⟨⟨typeId⟩, content⟩, ?_, ⟨by rw [length]; exact size.toNat_lt,
      Payload.fits_of_spells spelled⟩, rfl, spelled⟩
    simp [RawItem.bytes, encodeLength, length]
  · rintro ⟨⟨⟨typeId⟩, content⟩, rfl, ⟨few, _⟩, same, spelled⟩
    obtain ⟨itemType, payload⟩ := item
    obtain rfl : itemType = ⟨typeId⟩ := same
    refine ⟨(typeId, UInt32.ofNat content.length), _, content, rfl, rfl, content, content, [],
      (List.append_nil _).symm, ⟨rfl, ?_⟩, payload, [], [], rfl,
      ⟨rfl, Payload.decode_eq_ok_iff.mpr spelled⟩, rfl, rfl⟩
    exact (UInt32.toNat_ofNat_of_lt' few).symm

/-- A transform and the number of items, which are read as one record. -/
theorem nodeHeader_takes :
    (Reader.record 44 (return (← Reader.transform, ← word) : Reader (Transform × UInt32))).Takes
      fun bytes pair => bytes = pair.1.encode ++ Bytes.ofUInt32 pair.2 := by
  refine Takes.record ((transform_inverts.bind fun transform => word_inverts.bind fun count =>
    .pure (transform, count)).congr fun bytes pair => ?_) fun bytes pair spelled => ?_
  · constructor
    · rintro ⟨transform, _, rfl, count, _, rfl, rfl, rfl⟩
      rw [List.append_nil]
    · rintro rfl
      exact ⟨pair.1, _, rfl, pair.2, [], (List.append_nil _).symm, rfl, rfl⟩
  · rw [spelled]
    simp

theorem node_takes : Reader.node.Takes fun bytes node =>
    ∃ raw : RawNode, bytes = raw.bytes ∧ raw.Fits ∧ raw.Spells node := by
  refine (nodeHeader_takes.bind fun pair => (item_takes.replicate_raw pair.2.toNat).bind
    fun items => .pure (Node.mk pair.1 items)).congr fun bytes node => ?_
  constructor
  · rintro ⟨⟨transform, count⟩, _, _, rfl, rfl, items, _, _, rfl,
      ⟨raws, rfl, number, fit, spelled⟩, rfl, rfl⟩
    refine ⟨⟨transform.encode, raws⟩, ?_, ⟨Transform.length_encode transform,
      by rw [number]; exact count.toNat_lt, fit⟩, rfl, spelled⟩
    simp [RawNode.bytes, encodeLength, number]
  · rintro ⟨⟨transform, raws⟩, rfl, ⟨_, few, fit⟩, same, spelled⟩
    obtain rfl : transform = node.transform.encode := same
    refine ⟨(node.transform, UInt32.ofNat raws.length), _, _, rfl, rfl, node.items, _, [],
      (List.append_nil _).symm, ⟨raws, rfl, ?_, fit, spelled⟩, rfl, rfl⟩
    exact (UInt32.toNat_ofNat_of_lt' few).symm

theorem scene_takes : Reader.scene.Takes fun bytes scene =>
    ∃ raw : RawScene, bytes = raw.bytes ∧ raw.Fits ∧ raw.Spells scene := by
  refine (word_inverts.bind fun marker => word_inverts.bind fun count =>
    (node_takes.replicate_raw count.toNat).bind fun nodes => .pure (Scene.mk marker nodes)).congr
      fun bytes scene => ?_
  constructor
  · rintro ⟨marker, _, rfl, count, _, rfl, nodes, _, _, rfl, ⟨raws, rfl, number, fit, spelled⟩,
      rfl, rfl⟩
    refine ⟨⟨Bytes.ofUInt32 marker, raws⟩, ?_, ⟨Bytes.length_ofUInt32 marker,
      by rw [number]; exact count.toNat_lt, fit⟩, rfl, spelled⟩
    simp [RawScene.bytes, encodeLength, number]
  · rintro ⟨⟨header, raws⟩, rfl, ⟨_, few, fit⟩, same, spelled⟩
    obtain rfl : header = Bytes.ofUInt32 scene.marker := same
    refine ⟨scene.marker, _, by simp only [RawScene.bytes, encodeLength, List.append_assoc],
      UInt32.ofNat raws.length, _, rfl, scene.nodes, _, [], (List.append_nil _).symm,
      ⟨raws, rfl, ?_, fit, spelled⟩, rfl, rfl⟩
    exact (UInt32.toNat_ofNat_of_lt' few).symm

end Reader

/-- Pieces that are written so that each ends where it says can be told apart. -/
def Separates {α : Type} (write : α → Bytes) (fits : α → Prop) : Prop :=
  ∀ first second rest other, fits first → fits second →
    write first ++ rest = write second ++ other → first = second ∧ rest = other

/-- Equally many pieces one after another can be told apart. -/
theorem Separates.flatMap {α : Type} {write : α → Bytes} {fits : α → Prop}
    (separates : Separates write fits) {firsts seconds : List α} {rest other : Bytes}
    (sameNumber : firsts.length = seconds.length) (firstsFit : ∀ first ∈ firsts, fits first)
    (secondsFit : ∀ second ∈ seconds, fits second)
    (same : firsts.flatMap write ++ rest = seconds.flatMap write ++ other) :
    firsts = seconds ∧ rest = other := by
  induction firsts generalizing seconds with
  | nil =>
      obtain rfl := List.eq_nil_of_length_eq_zero sameNumber.symm
      exact ⟨rfl, same⟩
  | cons first firsts ih =>
      cases seconds with
      | nil => cases sameNumber
      | cons second seconds =>
          rw [List.flatMap_cons, List.flatMap_cons, List.append_assoc, List.append_assoc] at same
          obtain ⟨rfl, others⟩ := separates first second _ _
            (firstsFit first (List.mem_cons_self ..)) (secondsFit second (List.mem_cons_self ..)) same
          obtain ⟨rfl, rests⟩ := ih (Nat.succ.inj sameNumber)
            (fun piece member => firstsFit piece (List.mem_cons_of_mem _ member))
            (fun piece member => secondsFit piece (List.mem_cons_of_mem _ member)) others
          exact ⟨rfl, rests⟩

/-- Stored lengths that agree are agreeing lengths. -/
theorem length_eq_of_encodeLength {α β : Type} {first : List α} {second : List β}
    (firstFew : first.length < 2 ^ 32) (secondFew : second.length < 2 ^ 32)
    (same : encodeLength first = encodeLength second) : first.length = second.length := by
  have words := congrArg (fun bytes => (Bytes.toUInt32 bytes).toNat) same
  simp only [encodeLength, Bytes.toUInt32_ofUInt32] at words
  rwa [UInt32.toNat_ofNat_of_lt' firstFew, UInt32.toNat_ofNat_of_lt' secondFew] at words

theorem RawItem.separates : Separates RawItem.bytes RawItem.Fits := by
  intro first second rest other firstFits secondFits same
  simp only [RawItem.bytes, List.append_assoc] at same
  obtain ⟨sameType, same⟩ := List.append_inj same (by simp)
  obtain ⟨sameLength, same⟩ := List.append_inj same (by simp)
  obtain ⟨sameContent, rests⟩ := List.append_inj same
    (length_eq_of_encodeLength firstFits.length_lt secondFits.length_lt sameLength)
  have sameId : first.typeId = second.typeId := by
    have words := congrArg Bytes.toUInt32 sameType
    rw [Bytes.toUInt32_ofUInt32, Bytes.toUInt32_ofUInt32] at words
    exact congrArg StringId.mk words
  cases first
  cases second
  simp_all

theorem RawNode.separates : Separates RawNode.bytes RawNode.Fits := by
  intro first second rest other firstFits secondFits same
  simp only [RawNode.bytes, List.append_assoc] at same
  obtain ⟨sameTransform, same⟩ := List.append_inj same
    (firstFits.transform_length.trans secondFits.transform_length.symm)
  obtain ⟨sameNumber, same⟩ := List.append_inj same (by simp)
  obtain ⟨sameItems, rests⟩ := RawItem.separates.flatMap
    (length_eq_of_encodeLength firstFits.count_lt secondFits.count_lt sameNumber)
    firstFits.items_fit secondFits.items_fit same
  cases first
  cases second
  simp_all

theorem RawScene.separates : Separates RawScene.bytes RawScene.Fits := by
  intro first second rest other firstFits secondFits same
  simp only [RawScene.bytes, List.append_assoc] at same
  obtain ⟨sameHeader, same⟩ := List.append_inj same
    (firstFits.header_length.trans secondFits.header_length.symm)
  obtain ⟨sameNumber, same⟩ := List.append_inj same (by simp)
  obtain ⟨sameNodes, rests⟩ := RawNode.separates.flatMap
    (length_eq_of_encodeLength firstFits.count_lt secondFits.count_lt sameNumber)
    firstFits.nodes_fit secondFits.nodes_fit same
  cases first
  cases second
  simp_all

/-- What each element of a list has an image for, the whole list has. -/
theorem exists_forall₂ {α β : Type} {relation : α → β → Prop} {values : List α}
    (each : ∀ value ∈ values, ∃ image, relation value image) :
    ∃ images, List.Forall₂ relation values images := by
  induction values with
  | nil => exact ⟨[], .nil⟩
  | cons value values ih =>
      obtain ⟨image, related⟩ := each value (List.mem_cons_self ..)
      obtain ⟨images, allRelated⟩ := ih fun other member => each other (List.mem_cons_of_mem _ member)
      exact ⟨image :: images, .cons related allRelated⟩

/-- All bytes of the size of a transform are a transform. -/
theorem Transform.exists_encode {bytes : Bytes} (length : bytes.length = 40) :
    ∃ transform : Transform, bytes = transform.encode := by
  obtain ⟨words, number, rfl⟩ := Bytes.exists_words (show bytes.length = 4 * 10 from length)
  match words, number with
  | [px, py, pz, rx, ry, rz, rw, sx, sy, sz], _ =>
      refine ⟨⟨⟨⟨px⟩, ⟨py⟩, ⟨pz⟩⟩, ⟨⟨rx⟩, ⟨ry⟩, ⟨rz⟩, ⟨rw⟩⟩, ⟨⟨sx⟩, ⟨sy⟩, ⟨sz⟩⟩⟩, ?_⟩
      simp [Transform.encode, Vector3.encode, Quaternion.encode, encodeSingle]

theorem RawItem.Fits.exists_spells {raw : RawItem} (fits : raw.Fits) :
    ∃ item, raw.Spells item := by
  obtain ⟨payload, spelled⟩ := Payload.exists_spells_iff_fits.mpr fits.content_fits
  exact ⟨⟨raw.typeId, payload⟩, rfl, spelled⟩

theorem RawNode.Fits.exists_spells {raw : RawNode} (fits : raw.Fits) :
    ∃ node, raw.Spells node := by
  obtain ⟨transform, spelled⟩ := Transform.exists_encode fits.transform_length
  obtain ⟨items, allSpelled⟩ := exists_forall₂ fun item member =>
    (fits.items_fit item member).exists_spells
  exact ⟨⟨transform, items⟩, spelled, allSpelled⟩

/-- Every raw scene that fits has a meaning. -/
theorem RawScene.Fits.exists_spells {raw : RawScene} (fits : raw.Fits) :
    ∃ scene, raw.Spells scene := by
  obtain ⟨nodes, allSpelled⟩ := exists_forall₂ fun node member =>
    (fits.nodes_fit node member).exists_spells
  exact ⟨⟨Bytes.toUInt32 raw.header, nodes⟩, (Bytes.ofUInt32_toUInt32 fits.header_length).symm,
    allSpelled⟩

theorem RawNode.Spells.length_le {raw : RawNode} {node : Node} (spells : raw.Spells node) :
    44 + 8 * node.items.length ≤ raw.bytes.length := by
  have items : ∀ {raws : List RawItem} {items : List Item}, List.Forall₂ RawItem.Spells raws items →
      8 * items.length ≤ (raws.flatMap RawItem.bytes).length := by
    intro raws items spelled
    induction spelled with
    | nil => simp
    | cons _ _ ih =>
        simp only [List.length_cons, List.flatMap_cons, List.length_append, RawItem.bytes,
          Bytes.length_ofUInt32, length_encodeLength]
        omega
  have bound := items spells.items_spelled
  rw [RawNode.bytes, spells.transform_eq]
  simp only [List.length_append, Transform.length_encode, length_encodeLength]
  omega

/-- A buffer is at least as long as its nodes and items need. -/
theorem RawScene.Spells.length_le {raw : RawScene} {scene : Scene} (spells : raw.Spells scene) :
    8 + 44 * scene.nodes.length + 8 * scene.itemCount ≤ raw.bytes.length := by
  have nodes : ∀ {raws : List RawNode} {nodes : List Node}, List.Forall₂ RawNode.Spells raws nodes →
      44 * nodes.length + 8 * (nodes.map (·.items.length)).foldr (· + ·) 0 ≤
        (raws.flatMap RawNode.bytes).length := by
    intro raws nodes spelled
    induction spelled with
    | nil => simp
    | cons first _ ih =>
        have bound := first.length_le
        simp only [List.length_cons, List.map_cons, List.foldr_cons, List.flatMap_cons,
          List.length_append]
        omega
  have bound := nodes spells.nodes_spelled
  rw [RawScene.bytes, spells.header_eq, Scene.itemCount]
  simp only [List.length_append, Bytes.length_ofUInt32, length_encodeLength]
  omega

namespace Scene

/-- Decoding accepts the buffers that can be taken apart into fitting pieces, and gives
the scene that these spell. -/
theorem decode_eq_ok_iff {buffer : Bytes} {scene : Scene} :
    decode buffer = .ok scene ↔
      ∃ raw : RawScene, buffer = raw.bytes ∧ raw.Fits ∧ raw.Spells scene :=
  Reader.scene_takes.whole_eq_ok_iff fun cursor => .invalidRecord (.trailingBytes cursor.remaining)

/-- A buffer is accepted exactly if it can be taken apart into fitting pieces, which can
be done in one way at most. The decoded scene lists these pieces, and there cannot be
more of them than the buffer has room for, whatever counts it holds. -/
theorem decode_accepts_layout (buffer : Bytes) :
    ((∃ scene, decode buffer = .ok scene) ↔
      ∃! raw : RawScene, raw.Fits ∧ raw.bytes = buffer) ∧
    (∀ (raw : RawScene) (scene : Scene), raw.Fits → raw.bytes = buffer →
      (decode buffer = .ok scene ↔ raw.Spells scene)) ∧
    ∀ scene, decode buffer = .ok scene →
      8 + 44 * scene.nodes.length + 8 * scene.itemCount ≤ buffer.length := by
  have unique (raw other : RawScene) (fits : raw.Fits) (otherFits : other.Fits)
      (same : raw.bytes = other.bytes) : raw = other :=
    (RawScene.separates raw other [] [] fits otherFits (by rw [same])).1
  refine ⟨⟨?_, ?_⟩, ?_, ?_⟩
  · rintro ⟨scene, decoded⟩
    obtain ⟨raw, rfl, fits, _⟩ := decode_eq_ok_iff.mp decoded
    exact ⟨raw, ⟨fits, rfl⟩, fun other found => unique other raw found.1 fits found.2⟩
  · rintro ⟨raw, ⟨fits, rfl⟩, _⟩
    obtain ⟨scene, spelled⟩ := fits.exists_spells
    exact ⟨scene, decode_eq_ok_iff.mpr ⟨raw, rfl, fits, spelled⟩⟩
  · rintro raw scene fits rfl
    constructor
    · intro decoded
      obtain ⟨other, same, otherFits, spelled⟩ := decode_eq_ok_iff.mp decoded
      rwa [unique raw other fits otherFits same]
    · intro spelled
      exact decode_eq_ok_iff.mpr ⟨raw, rfl, fits, spelled⟩
  · intro scene decoded
    obtain ⟨raw, rfl, _, spelled⟩ := decode_eq_ok_iff.mp decoded
    exact spelled.length_le

/-- A node with a mesh of one part and an item of unknown type. -/
theorem decode_accepts_mesh_and_unknown :
    let mesh : Mesh := ⟨⟨5⟩, [⟨6⟩]⟩
    let raw : RawScene := ⟨[42, 0, 0, 0],
      [⟨Transform.identity.encode, [⟨TypeId.mesh, mesh.encode⟩, ⟨⟨7⟩, [1, 2, 3]⟩]⟩]⟩
    let scene : Scene := ⟨42,
      [⟨.identity, [⟨TypeId.mesh, .mesh mesh⟩, ⟨⟨7⟩, .unknown [1, 2, 3]⟩]⟩]⟩
    raw.Fits ∧ decode raw.bytes = .ok scene ∧ 8 + 44 * 1 + 8 * 2 ≤ raw.bytes.length := by
  intro mesh raw scene
  have spelled : raw.Spells scene :=
    ⟨by decide, .cons ⟨rfl, .cons ⟨rfl, rfl, rfl, by decide⟩ (.cons ⟨rfl, by decide, rfl⟩ .nil)⟩ .nil⟩
  have fits : raw.Fits := by
    refine ⟨rfl, by decide, ?_⟩
    simp only [raw, List.mem_singleton, forall_eq]
    refine ⟨rfl, by decide, ?_⟩
    simp only [List.mem_cons, List.not_mem_nil, or_false, forall_eq_or_imp, forall_eq]
    have meshSpelled : Payload.Spells TypeId.mesh mesh.encode (.mesh mesh) :=
      ⟨rfl, rfl, by decide⟩
    exact ⟨⟨by decide, Payload.fits_of_spells meshSpelled⟩,
      ⟨by decide, Payload.fits_of_unknown (by decide) _⟩⟩
  have decoded := ((decode_accepts_layout raw.bytes).2.1 raw scene fits rfl).mpr spelled
  exact ⟨fits, decoded, (decode_accepts_layout raw.bytes).2.2 scene decoded⟩

end Scene

end SceneForge
