import SceneForge.Proofs.Reading
import SceneForge.Proofs.Scene.Layout
import SceneForge.Scene.Decoding

/-!
# What the readers of scenes take

Every reader of a part of a scene takes exactly what the layout allows for this part.
Most of them invert a writer; a material's properties are stored with bytes that have
no meaning, so the reader of materials takes more than what is written.
-/

namespace SceneForge

open Binary

namespace Reader

variable {α β : Type}

namespace Inverts

/-- A reader that inverts a writer, followed by another reader. -/
theorem bind {first : Reader α} {next : α → Reader β} {encode : α → Bytes}
    {back : α → Bytes → β → Prop} (inverts : first.Inverts encode)
    (takes : ∀ value, (next value).Takes (back value)) :
    Takes (first >>= next) fun bytes result =>
      ∃ value right, bytes = encode value ++ right ∧ back value right result := by
  refine (Takes.bind inverts takes).congr fun bytes result => ?_
  constructor
  · rintro ⟨value, _, right, rfl, rfl, spelled⟩
    exact ⟨value, right, rfl, spelled⟩
  · rintro ⟨value, right, rfl, spelled⟩
    exact ⟨value, encode value, right, rfl, rfl, spelled⟩

end Inverts

theorem word_inverts : Reader.word.Inverts Bytes.ofUInt32 := Takes.word

theorem single_inverts : Reader.single.Inverts encodeSingle := by
  refine (word_inverts.bind fun bits => .pure (Single.mk bits)).congr fun bytes value => ?_
  constructor
  · rintro ⟨bits, _, rfl, rfl, rfl⟩
    exact List.append_nil _
  · rintro rfl
    exact ⟨value.bits, [], (List.append_nil _).symm, rfl, rfl⟩

theorem vector3_inverts : Reader.vector3.Inverts Vector3.encode := by
  refine (single_inverts.bind fun x => single_inverts.bind fun y => single_inverts.bind fun z =>
    .pure (Vector3.mk x y z)).congr fun bytes value => ?_
  constructor
  · rintro ⟨x, _, rfl, y, _, rfl, z, _, rfl, rfl, rfl⟩
    simp [Vector3.encode]
  · rintro rfl
    exact ⟨value.x, _, by rw [Vector3.encode, List.append_assoc], value.y, _, rfl, value.z, [],
      (List.append_nil _).symm, rfl, rfl⟩

theorem quaternion_inverts : Reader.quaternion.Inverts Quaternion.encode := by
  refine (single_inverts.bind fun x => single_inverts.bind fun y => single_inverts.bind fun z =>
    single_inverts.bind fun w => .pure (Quaternion.mk x y z w)).congr fun bytes value => ?_
  constructor
  · rintro ⟨x, _, rfl, y, _, rfl, z, _, rfl, w, _, rfl, rfl, rfl⟩
    simp [Quaternion.encode]
  · rintro rfl
    exact ⟨value.x, _, by simp only [Quaternion.encode, List.append_assoc], value.y, _, rfl,
      value.z, _, rfl, value.w, [], (List.append_nil _).symm, rfl, rfl⟩

theorem transform_inverts : Reader.transform.Inverts Transform.encode := by
  refine (vector3_inverts.bind fun position => quaternion_inverts.bind fun rotation =>
    vector3_inverts.bind fun scale => .pure (Transform.mk position rotation scale)).congr
      fun bytes value => ?_
  constructor
  · rintro ⟨position, _, rfl, rotation, _, rfl, scale, _, rfl, rfl, rfl⟩
    simp [Transform.encode]
  · rintro rfl
    exact ⟨value.position, _, by rw [Transform.encode, List.append_assoc], value.rotation, _, rfl,
      value.scale, [], (List.append_nil _).symm, rfl, rfl⟩

end Reader

/-- A code belongs to the kind that is stored with it. -/
theorem LightType.ofCode?_eq_some_iff {code : UInt32} {type : LightType} :
    LightType.ofCode? code = some type ↔ type.code = code := by
  constructor
  · intro found
    have stored := List.find?_some found
    simpa using stored
  · rintro rfl
    cases type <;> rfl

namespace Reader

theorem light_inverts : Reader.light.Inverts Light.encode := by
  refine (word_inverts.bind fun code => vector3_inverts.bind fun color =>
    single_inverts.bind fun radius => single_inverts.bind fun innerAngle =>
    single_inverts.bind fun outerAngle => single_inverts.bind fun nearClipDistance =>
    word_inverts.bind fun profileIndex => (?last : Takes _ fun bytes light =>
      bytes = [] ∧ ∃ type : LightType, type.code = code ∧
        { type, color, radius, innerAngle, outerAngle, nearClipDistance,
          profileIndex := profileIndex.toInt32 } = light)).congr fun bytes value => ?_
  case last =>
    cases found : LightType.ofCode? code with
    | none =>
        refine (Takes.throw _).congr fun bytes light => ?_
        constructor
        · exact False.elim
        · rintro ⟨rfl, type, stored, rfl⟩
          rw [← LightType.ofCode?_eq_some_iff, found] at stored
          cases stored
    | some type =>
        refine (Takes.pure _).congr fun bytes light => ?_
        have stored := LightType.ofCode?_eq_some_iff.mp found
        constructor
        · rintro ⟨rfl, rfl⟩
          exact ⟨rfl, type, stored, rfl⟩
        · rintro ⟨rfl, other, sameCode, rfl⟩
          rw [← LightType.ofCode?_eq_some_iff, found] at sameCode
          cases sameCode
          exact ⟨rfl, rfl⟩
  constructor
  · rintro ⟨code, _, rfl, color, _, rfl, radius, _, rfl, innerAngle, _, rfl, outerAngle, _, rfl,
      nearClipDistance, _, rfl, profileIndex, _, rfl, rfl, type, rfl, rfl⟩
    simp [Light.encode]
  · rintro rfl
    exact ⟨value.type.code, _, by simp only [Light.encode, List.append_assoc], value.color, _, rfl,
      value.radius, _, rfl, value.innerAngle, _, rfl, value.outerAngle, _, rfl,
      value.nearClipDistance, _, rfl, value.profileIndex.toUInt32, [], (List.append_nil _).symm,
      rfl, value.type, rfl, by simp⟩

theorem sunlight_inverts : Reader.sunlight.Inverts Sunlight.encode := by
  refine (single_inverts.bind fun sunriseTime => single_inverts.bind fun sunsetTime =>
    single_inverts.bind fun eastDirection => single_inverts.bind fun angleOfIncidence =>
    single_inverts.bind fun timeOfDay =>
      .pure (Sunlight.mk sunriseTime sunsetTime eastDirection angleOfIncidence timeOfDay)).congr
        fun bytes value => ?_
  constructor
  · rintro ⟨sunriseTime, _, rfl, sunsetTime, _, rfl, eastDirection, _, rfl, angleOfIncidence, _,
      rfl, timeOfDay, _, rfl, rfl, rfl⟩
    simp [Sunlight.encode]
  · rintro rfl
    exact ⟨value.sunriseTime, _, by simp only [Sunlight.encode, List.append_assoc],
      value.sunsetTime, _, rfl, value.eastDirection, _, rfl, value.angleOfIncidence, _, rfl,
      value.timeOfDay, [], (List.append_nil _).symm, rfl, rfl⟩

theorem propertyRecord_inverts : PropertyRecord.reader.Inverts PropertyRecord.encode := by
  refine (word_inverts.bind fun id => Takes.byte.bind fun typeCode => Takes.byte.bind fun overwritten =>
    Takes.halfWord.bind fun padding => word_inverts.bind fun first => word_inverts.bind fun second =>
    word_inverts.bind fun third => word_inverts.bind fun fourth =>
      .pure (PropertyRecord.mk ⟨id⟩ typeCode overwritten padding ⟨first, second, third, fourth⟩)).congr
        fun bytes value => ?_
  constructor
  · rintro ⟨id, _, rfl, typeCode, _, _, rfl, rfl, overwritten, _, _, rfl, rfl, padding, _, _, rfl, rfl,
      first, _, rfl, second, _, rfl, third, _, rfl, fourth, _, rfl, rfl, rfl⟩
    simp [PropertyRecord.encode, Words.toList]
  · rintro rfl
    refine ⟨value.id.raw, _, ?_, value.typeCode, _, _, rfl, rfl, value.overwritten, _, _, rfl, rfl,
      value.padding, _, _, rfl, rfl, value.words.first, _, rfl, value.words.second, _, rfl,
      value.words.third, _, rfl, value.words.fourth, [], rfl, rfl, rfl⟩
    simp [PropertyRecord.encode, Words.toList]

/-- Two words that are read as one record. -/
theorem wordPair_takes {size : Nat} (sized : size = 8) :
    (Reader.record size (return (← word, ← word) : Reader (UInt32 × UInt32))).Takes
      fun bytes pair => bytes = Bytes.ofUInt32 pair.1 ++ Bytes.ofUInt32 pair.2 := by
  refine Takes.record ((word_inverts.bind fun first => word_inverts.bind fun second =>
    .pure (first, second)).congr fun bytes pair => ?_) fun bytes pair spelled => ?_
  · constructor
    · rintro ⟨first, _, rfl, second, _, rfl, rfl, rfl⟩
      rw [List.append_nil]
    · rintro rfl
      exact ⟨pair.1, _, rfl, pair.2, [], (List.append_nil _).symm, rfl, rfl⟩
  · rw [spelled, sized]
    simp

/-- Pieces of four bytes are the words of the identifiers that they spell. -/
theorem flatten_eq_assetIds {pieces : List Bytes} (sized : ∀ piece ∈ pieces, piece.length = 4) :
    pieces.flatten = (pieces.map fun bytes => AssetId.mk (Bytes.toUInt32 bytes)).flatMap fun id =>
      Bytes.ofUInt32 id.raw := by
  rw [List.flatMap_map, List.flatMap_def]
  congr 1
  rw [List.map_congr_left fun piece member => Bytes.ofUInt32_toUInt32 (sized piece member),
    List.map_id']

theorem mesh_takes : Reader.mesh.Takes fun bytes mesh =>
    bytes = mesh.encode ∧ mesh.subMeshMaterials.length < 2 ^ 32 := by
  have small (count : UInt32) : count.toNat * 4 < 2 ^ 64 := by
    have bound := count.toNat_lt
    omega
  refine (Takes.bind (wordPair_takes rfl) fun pair =>
    (Takes.records (by decide) (small pair.2)).bind fun pieces =>
      .pure (Mesh.mk ⟨pair.1⟩ (pieces.map fun bytes => ⟨Bytes.toUInt32 bytes⟩))).congr
        fun bytes mesh => ?_
  constructor
  · rintro ⟨⟨id, count⟩, _, _, rfl, rfl, pieces, _, _, rfl, ⟨rfl, length, sized⟩, rfl, rfl⟩
    refine ⟨?_, by simpa [length] using count.toNat_lt⟩
    simp [Mesh.encode, encodeLength, length, flatten_eq_assetIds sized]
  · rintro ⟨rfl, few⟩
    refine ⟨(mesh.id.raw, UInt32.ofNat mesh.subMeshMaterials.length), _, _, ?_, rfl,
      mesh.subMeshMaterials.map fun id => Bytes.ofUInt32 id.raw, _, [],
      (List.append_nil _).symm, ⟨rfl, ?_, ?_⟩, rfl, ?_⟩
    · simp [Mesh.encode, encodeLength, List.flatMap_def]
    · rw [List.length_map]
      exact (UInt32.toNat_ofNat_of_lt' few).symm
    · simp
    · simp [Function.comp_def]

/-- Pieces of the size of a record are records, and each record gives its property. -/
theorem exists_records {pieces : List Bytes} {properties : List MaterialProperty}
    (sized : ∀ piece ∈ pieces, piece.length = PropertyRecord.size)
    (given : List.Forall₂ (fun piece property =>
      ∃ pair, PropertyRecord.reader.onBytes piece = .ok pair ∧
        MaterialProperty.ofRecord pair.1 = .ok property) pieces properties) :
    ∃ records : List PropertyRecord, pieces = records.map PropertyRecord.encode ∧
      List.Forall₂ (fun record property => MaterialProperty.ofRecord record = .ok property)
        records properties := by
  induction given with
  | nil => exact ⟨[], rfl, .nil⟩
  | @cons piece property pieces properties first others ih =>
      obtain ⟨⟨record, after⟩, read, meant⟩ := first
      obtain ⟨records, rfl, allMeant⟩ := ih fun other member =>
        sized other (List.mem_cons_of_mem _ member)
      obtain ⟨front, rfl, split, _⟩ := propertyRecord_inverts.of_onBytes read
      have length := sized piece (List.mem_cons_self ..)
      rw [split, List.length_append, PropertyRecord.length_encode, PropertyRecord.size] at length
      have nothing : after.rest = [] := List.eq_nil_of_length_eq_zero (by omega)
      refine ⟨record :: records, ?_, .cons meant allMeant⟩
      rw [List.map_cons, split, nothing, List.append_nil]

theorem properties_takes {count : Nat} (small : count < 2 ^ 32) :
    (Reader.properties count).Takes fun bytes properties =>
      ∃ records : List PropertyRecord, bytes = records.flatMap PropertyRecord.encode ∧
        records.length = count ∧
        List.Forall₂ (fun record property => MaterialProperty.ofRecord record = .ok property)
          records properties := by
  have each (piece : Bytes) :
      Takes (do
          let pair ← PropertyRecord.reader.onBytes piece
          MaterialProperty.ofRecord pair.1 : Reader MaterialProperty)
        fun bytes property => bytes = [] ∧ ∃ pair, PropertyRecord.reader.onBytes piece = .ok pair ∧
          MaterialProperty.ofRecord pair.1 = .ok property := by
    refine ((Takes.lift (PropertyRecord.reader.onBytes piece)).bind fun pair =>
      .lift (MaterialProperty.ofRecord pair.1)).congr
      fun bytes property => ?_
    constructor
    · rintro ⟨pair, _, _, rfl, ⟨rfl, read⟩, rfl, meant⟩
      exact ⟨rfl, pair, read, meant⟩
    · rintro ⟨rfl, pair, read, meant⟩
      exact ⟨pair, [], [], rfl, ⟨rfl, read⟩, rfl, meant⟩
  have fits : count * PropertyRecord.size < 2 ^ 64 := by
    rw [PropertyRecord.size]
    omega
  refine ((Takes.records (by decide) fits).bind fun pieces => .mapM each pieces).congr
    fun bytes properties => ?_
  constructor
  · rintro ⟨pieces, _, _, rfl, ⟨rfl, rfl, sized⟩, rfl, given⟩
    obtain ⟨records, rfl, meant⟩ := exists_records sized given
    exact ⟨records, by rw [List.append_nil, List.flatMap_def], (List.length_map _).symm, meant⟩
  · rintro ⟨records, rfl, rfl, meant⟩
    refine ⟨records.map PropertyRecord.encode, _, [], (List.append_nil _).symm,
      ⟨List.flatMap_def, List.length_map _, by simp [PropertyRecord.size]⟩, rfl, ?_⟩
    rw [List.forall₂_map_left_iff]
    exact meant.imp fun record property given =>
      ⟨_, propertyRecord_inverts.onBytes rfl, given⟩

/-- Four words that are read as one record. -/
theorem wordQuadruple_takes :
    (Reader.record 16 (return (← word, ← word, ← word, ← word) :
        Reader (UInt32 × UInt32 × UInt32 × UInt32))).Takes
      fun bytes words => bytes = Bytes.ofUInt32 words.1 ++ Bytes.ofUInt32 words.2.1 ++
        Bytes.ofUInt32 words.2.2.1 ++ Bytes.ofUInt32 words.2.2.2 := by
  refine Takes.record ((word_inverts.bind fun first => word_inverts.bind fun second =>
    word_inverts.bind fun third => word_inverts.bind fun fourth =>
      .pure (first, second, third, fourth)).congr fun bytes words => ?_) fun bytes words spelled => ?_
  · constructor
    · rintro ⟨first, _, rfl, second, _, rfl, third, _, rfl, fourth, _, rfl, rfl, rfl⟩
      simp
    · rintro rfl
      exact ⟨words.1, _, by simp only [List.append_assoc], words.2.1, _, rfl, words.2.2.1, _, rfl,
        words.2.2.2, [], (List.append_nil _).symm, rfl, rfl⟩
  · rw [spelled]
    simp

theorem materialUse_takes :
    Reader.materialUse.Takes fun bytes use => use.Spelled bytes := by
  refine (wordQuadruple_takes.bind fun words => (properties_takes words.2.2.2.toNat_lt).bind
    fun properties => .pure (MaterialUse.mk ⟨words.1⟩ ⟨words.2.1⟩ ⟨words.2.2.1⟩ properties)).congr
      fun bytes use => ?_
  constructor
  · rintro ⟨⟨material, technique, blueprint, count⟩, _, _, rfl, rfl, properties, _, _, rfl,
      ⟨records, rfl, length, meant⟩, rfl, rfl⟩
    refine ⟨records, ?_, by rw [length]; exact count.toNat_lt, meant⟩
    simp [encodeLength, length]
  · rintro ⟨records, rfl, few, meant⟩
    refine ⟨(use.material.raw, use.technique.raw, use.blueprint.raw,
      UInt32.ofNat records.length), _, _, ?_, rfl, use.properties, _, [],
      (List.append_nil _).symm, ⟨records, rfl, ?_, meant⟩, rfl, rfl⟩
    · simp [encodeLength]
    · exact (UInt32.toNat_ofNat_of_lt' few).symm

end Reader

namespace Payload

/-- A type without a reader is unknown. -/
theorem not_mem_known {typeId : StringId} (unread : reader? typeId = none) :
    typeId ∉ TypeId.known := by
  intro member
  simp only [TypeId.known, List.mem_cons, List.not_mem_nil, or_false] at member
  rcases member with rfl | rfl | rfl | rfl | rfl | rfl | rfl | rfl | rfl | rfl <;>
    cases unread

/-- The reader of a known type takes the payloads of this type. -/
theorem reader?_takes {typeId : StringId} {reader : Reader Payload}
    (read : reader? typeId = some reader) : reader.Takes (Spells typeId) := by
  rw [reader?] at read
  split at read
  next camera =>
    cases read
    subst camera
    refine (Reader.Takes.pure _).congr fun bytes payload => ?_
    cases payload <;> simp +decide [Spells]
  split at read
  next light =>
    cases read
    subst light
    refine ((Reader.Takes.record Reader.light_inverts (by simp)).bind fun light =>
      .pure (Payload.light light)).congr fun bytes payload => ?_
    cases payload <;> simp +decide [Spells]
  split at read
  next sunlight =>
    cases read
    subst sunlight
    refine ((Reader.Takes.record Reader.sunlight_inverts (by simp)).bind fun sunlight =>
      .pure (Payload.sunlight sunlight)).congr fun bytes payload => ?_
    cases payload <;> simp +decide [Spells]
  split at read
  next mesh =>
    cases read
    subst mesh
    refine (Reader.mesh_takes.bind fun mesh => .pure (Payload.mesh mesh)).congr
      fun bytes payload => ?_
    cases payload <;> simp +decide [Spells]
  split at read
  next skeletonMesh =>
    cases read
    subst skeletonMesh
    refine (Reader.word_inverts.bind fun animation => Reader.mesh_takes.bind fun mesh =>
      .pure (Payload.skeletonMesh ⟨animation⟩ mesh)).congr fun bytes payload => ?_
    rcases payload with _ | _ | _ | _ | ⟨⟨animation⟩, mesh⟩ | _ | _ <;> simp +decide [Spells]
  split at read
  next usesMaterial =>
    cases read
    refine (Reader.materialUse_takes.bind fun use => .pure (Payload.material use)).congr
      fun bytes payload => ?_
    have known := TypeId.mem_known_of_usesMaterial usesMaterial
    cases payload <;> simp_all [Spells]
  cases read

end Payload

end SceneForge
