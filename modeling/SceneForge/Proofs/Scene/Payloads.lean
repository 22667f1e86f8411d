import SceneForge.Proofs.Scene.Readers

/-!
# Payloads that have a meaning

The layout of payloads is described twice: by the records that bytes spell, and by
lengths, counts and codes at fixed offsets. Both descriptions allow the same byte
strings (`exists_spells_iff_fits`), and decoding accepts these and no others
(`decode_eq_ok_iff`).
-/

namespace SceneForge

namespace Bytes

/-- The word that stands behind so many bytes. -/
theorem wordAt_append {front : Bytes} {offset : Nat} (length : front.length = offset)
    (word : UInt32) (rest : Bytes) : (front ++ (ofUInt32 word ++ rest)).wordAt offset = word := by
  have taken : (ofUInt32 word ++ rest).take 4 = ofUInt32 word :=
    List.take_left' (length_ofUInt32 word)
  rw [wordAt, ← length, List.drop_left, taken, toUInt32_ofUInt32]

/-- The word at the front. -/
theorem wordAt_zero (word : UInt32) (rest : Bytes) : (ofUInt32 word ++ rest).wordAt 0 = word :=
  @wordAt_append [] 0 rfl word rest

/-- Pieces of one size can be skipped as a whole. -/
theorem drop_flatMap {α : Type} {encode : α → Bytes} {size : Nat}
    (sized : ∀ value, (encode value).length = size) (values : List α) (index : Nat) :
    (values.flatMap encode).drop (size * index) = (values.drop index).flatMap encode := by
  induction index generalizing values with
  | zero => rfl
  | succ index ih =>
      cases values with
      | nil => simp
      | cons value values =>
          rw [List.flatMap_cons, Nat.mul_succ, Nat.add_comm, ← List.drop_drop,
            List.drop_left' (sized value), ih, List.drop_succ_cons]

/-- A byte string of whole words is made up of words. -/
theorem exists_words {bytes : Bytes} {count : Nat} (length : bytes.length = 4 * count) :
    ∃ words : List UInt32, words.length = count ∧ bytes = words.flatMap ofUInt32 := by
  obtain ⟨whole, number, sized⟩ := chunks_of_length (by decide : 0 < 4)
    (length.trans (Nat.mul_comm 4 count))
  refine ⟨(chunks 4 bytes).map toUInt32, by rw [List.length_map, number], ?_⟩
  rw [List.flatMap_map, List.flatMap_def,
    List.map_congr_left fun piece member => ofUInt32_toUInt32 (sized piece member),
    List.map_id', ← whole]

end Bytes

namespace PropertyRecord

/-- All bytes of the size of a record are a record. -/
theorem exists_encode {bytes : Bytes} (length : bytes.length = size) :
    ∃ record : PropertyRecord, bytes = record.encode := by
  obtain ⟨words, number, rfl⟩ := Bytes.exists_words (show bytes.length = 4 * 6 from length)
  match words, number with
  | [id, marks, first, second, third, fourth], _ =>
      obtain ⟨typeCode, overwritten, low, high, split⟩ :
          ∃ typeCode overwritten low high, Bytes.ofUInt32 marks = [typeCode, overwritten, low, high] :=
        ⟨_, _, _, _, rfl⟩
      have small := Bytes.toNat_lt [low, high]
      rw [show [low, high].length = 2 from rfl] at small
      have padding : Bytes.ofNat 2 (UInt16.ofNat (Bytes.toNat [low, high])).toNat = [low, high] := by
        rw [UInt16.toNat_ofNat_of_lt' small]
        exact Bytes.ofNat_toNat [low, high]
      refine ⟨⟨⟨id⟩, typeCode, overwritten, UInt16.ofNat (Bytes.toNat [low, high]),
        ⟨first, second, third, fourth⟩⟩, ?_⟩
      rw [encode, padding]
      simp [split, Words.toList]

/-- A byte string of whole records is made up of records. -/
theorem exists_flatMap_encode {bytes : Bytes} {count : Nat} (length : bytes.length = 24 * count) :
    ∃ records : List PropertyRecord, records.length = count ∧ bytes = records.flatMap encode := by
  induction count generalizing bytes with
  | zero => exact ⟨[], rfl, List.eq_nil_of_length_eq_zero length⟩
  | succ count ih =>
      have front : (bytes.take 24).length = 24 := by
        rw [List.length_take]
        omega
      have back : (bytes.drop 24).length = 24 * count := by
        rw [List.length_drop]
        omega
      obtain ⟨record, first⟩ := exists_encode front
      obtain ⟨records, rfl, others⟩ := ih back
      refine ⟨record :: records, rfl, ?_⟩
      rw [List.flatMap_cons, ← first, ← others, List.take_append_drop]

/-- Where the type of a record's value stands among the records. -/
theorem getElem?_typeCode (records : List PropertyRecord) {index : Nat}
    (inside : index < records.length) :
    (records.flatMap encode)[24 * index + 4]? = some records[index].typeCode := by
  rw [← List.getElem?_drop, Bytes.drop_flatMap length_encode, List.drop_eq_getElem_cons inside,
    List.flatMap_cons]
  rfl

end PropertyRecord

theorem ValueType.ofCode?_code (type : ValueType) : ofCode? type.code = some type := by
  cases type <;> rfl

/-- A code belongs to the type that is stored with it. -/
theorem ValueType.ofCode?_eq_some_iff {code : UInt8} {type : ValueType} :
    ofCode? code = some type ↔ type.code = code := by
  constructor
  · intro found
    have stored := List.find?_some found
    simpa using stored
  · rintro rfl
    exact ofCode?_code type

/-- The codes of value types are those up to nine. -/
theorem ValueType.exists_ofCode?_iff {code : UInt8} :
    (∃ type, ValueType.ofCode? code = some type) ↔ code ≤ 9 := by
  constructor
  · rintro ⟨type, found⟩
    obtain rfl := ofCode?_eq_some_iff.mp found
    cases type <;> decide
  · intro small
    have listed : ∀ n < 10, ∃ type ∈ ValueType.all, type.code = UInt8.ofNat n := by decide
    obtain ⟨type, _, stored⟩ := listed code.toNat (Nat.lt_succ_of_le small)
    rw [UInt8.ofNat_toNat] at stored
    exact ⟨type, ofCode?_eq_some_iff.mpr stored⟩

/-- The codes of kinds of light are those up to two. -/
theorem LightType.exists_code {code : UInt32} (small : code ≤ 2) :
    ∃ type : LightType, type.code = code := by
  have listed : ∀ n < 3, ∃ type ∈ LightType.all, type.code = UInt32.ofNat n := by decide
  obtain ⟨type, _, stored⟩ := listed code.toNat (Nat.lt_succ_of_le small)
  rw [UInt32.ofNat_toNat] at stored
  exact ⟨type, stored⟩

/-- Bytes that fit a light spell one. -/
theorem Light.exists_encode {bytes : Bytes} (length : bytes.length = 36)
    (coded : bytes.wordAt 0 ≤ 2) : ∃ light : Light, bytes = light.encode := by
  obtain ⟨words, number, rfl⟩ := Bytes.exists_words (show bytes.length = 4 * 9 from length)
  match words, number with
  | [code, red, green, blue, radius, innerAngle, outerAngle, nearClipDistance, profileIndex], _ =>
      rw [List.flatMap_cons, Bytes.wordAt_zero] at coded
      obtain ⟨type, rfl⟩ := LightType.exists_code coded
      refine ⟨⟨type, ⟨⟨red⟩, ⟨green⟩, ⟨blue⟩⟩, ⟨radius⟩, ⟨innerAngle⟩, ⟨outerAngle⟩,
        ⟨nearClipDistance⟩, profileIndex.toInt32⟩, ?_⟩
      simp [Light.encode, Vector3.encode, encodeSingle]

/-- Bytes that fit the sun spell one. -/
theorem Sunlight.exists_encode {bytes : Bytes} (length : bytes.length = 20) :
    ∃ sunlight : Sunlight, bytes = sunlight.encode := by
  obtain ⟨words, number, rfl⟩ := Bytes.exists_words (show bytes.length = 4 * 5 from length)
  match words, number with
  | [sunriseTime, sunsetTime, eastDirection, angleOfIncidence, timeOfDay], _ =>
      refine ⟨⟨⟨sunriseTime⟩, ⟨sunsetTime⟩, ⟨eastDirection⟩, ⟨angleOfIncidence⟩, ⟨timeOfDay⟩⟩, ?_⟩
      simp [Sunlight.encode, encodeSingle]

/-- Bytes that fit a mesh spell one. -/
theorem Mesh.exists_encode {bytes : Bytes} (length : bytes.length = 8 + 4 * (bytes.wordAt 4).toNat) :
    ∃ content : Mesh, bytes = content.encode ∧ content.subMeshMaterials.length < 2 ^ 32 := by
  have words : bytes.length = 4 * ((bytes.wordAt 4).toNat + 2) := by omega
  obtain ⟨words, number, whole⟩ := Bytes.exists_words words
  match words, number with
  | id :: count :: ids, number =>
      have stored : bytes.wordAt 4 = count := by
        rw [whole, List.flatMap_cons, List.flatMap_cons]
        exact Bytes.wordAt_append (Bytes.length_ofUInt32 id) count _
      rw [stored] at number
      have few : ids.length = count.toNat := Nat.succ.inj (Nat.succ.inj number)
      refine ⟨⟨⟨id⟩, ids.map AssetId.mk⟩, ?_, ?_⟩
      · rw [whole]
        simp [Mesh.encode, encodeLength, few, List.flatMap_map]
      · rw [List.length_map, few]
        exact count.toNat_lt

/-- Bytes that fit an animated mesh spell one. -/
theorem Mesh.exists_skeleton {bytes : Bytes}
    (length : bytes.length = 12 + 4 * (bytes.wordAt 8).toNat) :
    ∃ (animation : AssetId) (content : Mesh),
      bytes = Bytes.ofUInt32 animation.raw ++ content.encode ∧
        content.subMeshMaterials.length < 2 ^ 32 := by
  have front : (bytes.take 4).length = 4 := by
    rw [List.length_take]
    omega
  have shifted : Bytes.wordAt (bytes.drop 4) 4 = bytes.wordAt 8 := by
    rw [Bytes.wordAt, Bytes.wordAt, List.drop_drop]
  have back : (bytes.drop 4).length = 8 + 4 * (Bytes.wordAt (bytes.drop 4) 4).toNat := by
    rw [List.length_drop, shifted]
    omega
  obtain ⟨content, spelled, few⟩ := Mesh.exists_encode back
  refine ⟨⟨Bytes.toUInt32 (bytes.take 4)⟩, content, ?_, few⟩
  rw [Bytes.ofUInt32_toUInt32 front, ← spelled, List.take_append_drop]

/-- Which property a record stores. -/
theorem MaterialProperty.ofRecord_eq_ok_iff {record : PropertyRecord} {property : MaterialProperty} :
    ofRecord record = .ok property ↔ ∃ type, ValueType.ofCode? record.typeCode = some type ∧
      property = ⟨record.id, .ofWords type record.words, record.overwritten != 0⟩ := by
  rw [ofRecord]
  cases ValueType.ofCode? record.typeCode with
  | none => simp
  | some type => simp [eq_comm]

/-- Records whose types are known are properties. -/
theorem MaterialProperty.exists_ofRecord {records : List PropertyRecord}
    (typed : ∀ record ∈ records, record.typeCode ≤ 9) :
    ∃ properties, List.Forall₂
      (fun record property => MaterialProperty.ofRecord record = .ok property) records properties := by
  induction records with
  | nil => exact ⟨[], .nil⟩
  | cons record records ih =>
      obtain ⟨properties, meant⟩ := ih fun other member => typed other (List.mem_cons_of_mem _ member)
      obtain ⟨type, found⟩ :=
        ValueType.exists_ofCode?_iff.mpr (typed record (List.mem_cons_self ..))
      exact ⟨_ :: properties, .cons (ofRecord_eq_ok_iff.mpr ⟨type, found, rfl⟩) meant⟩

/-- Bytes that fit a material spell one. -/
theorem MaterialUse.exists_spelled {bytes : Bytes}
    (length : bytes.length = 16 + 24 * (bytes.wordAt 12).toNat)
    (typed : ∀ index < (bytes.wordAt 12).toNat, bytes.getD (16 + 24 * index + 4) 0 ≤ 9) :
    ∃ use : MaterialUse, use.Spelled bytes := by
  have front : (bytes.take 16).length = 4 * 4 := by
    rw [List.length_take]
    omega
  have back : (bytes.drop 16).length = 24 * (bytes.wordAt 12).toNat := by
    rw [List.length_drop]
    omega
  obtain ⟨words, number, first⟩ := Bytes.exists_words front
  obtain ⟨records, few, others⟩ := PropertyRecord.exists_flatMap_encode back
  match words, number with
  | [material, technique, blueprint, count], _ =>
      have whole : bytes = Bytes.ofUInt32 material ++ Bytes.ofUInt32 technique ++
          Bytes.ofUInt32 blueprint ++ Bytes.ofUInt32 count ++
          records.flatMap PropertyRecord.encode := by
        calc bytes
            = bytes.take 16 ++ bytes.drop 16 := (List.take_append_drop 16 bytes).symm
          _ = _ := by
            rw [first, others]
            simp
      have stored : bytes.wordAt 12 = count := by
        rw [whole, List.append_assoc _ (Bytes.ofUInt32 count)]
        exact Bytes.wordAt_append (by simp) count _
      rw [stored] at few typed
      obtain ⟨properties, meant⟩ : ∃ properties, List.Forall₂
          (fun record property => MaterialProperty.ofRecord record = .ok property)
          records properties := by
        refine MaterialProperty.exists_ofRecord fun record member => ?_
        obtain ⟨index, inside, rfl⟩ := List.getElem_of_mem member
        have small := typed index (few ▸ inside)
        have found : bytes[16 + 24 * index + 4]? = some records[index].typeCode := by
          rw [Nat.add_assoc, ← List.getElem?_drop, others,
            PropertyRecord.getElem?_typeCode records inside]
        rwa [List.getD_eq_getElem?_getD, found] at small
      refine ⟨⟨⟨material⟩, ⟨technique⟩, ⟨blueprint⟩, properties⟩, records, ?_, ?_, meant⟩
      · rw [encodeLength, few, UInt32.ofNat_toNat]
        exact whole
      · rw [few]
        exact count.toNat_lt

namespace MaterialUse

/-- Bytes that spell a material have room for their records, whose types are known. -/
theorem Spelled.fits {use : MaterialUse} {bytes : Bytes} (spelled : use.Spelled bytes) :
    bytes.length = 16 + 24 * (bytes.wordAt 12).toNat ∧
      ∀ index < (bytes.wordAt 12).toNat, bytes.getD (16 + 24 * index + 4) 0 ≤ 9 := by
  obtain ⟨records, whole, few, meant⟩ := spelled
  have count : (bytes.wordAt 12).toNat = records.length := by
    rw [whole, encodeLength, List.append_assoc _ (Bytes.ofUInt32 _),
      Bytes.wordAt_append (by simp), UInt32.toNat_ofNat_of_lt' few]
  rw [count]
  constructor
  · rw [whole]
    simp [List.length_flatMap]
    omega
  · intro index inside
    have typed : records[index].typeCode ≤ 9 := by
      obtain ⟨property, given⟩ :
          ∃ property, MaterialProperty.ofRecord records[index] = .ok property :=
        ⟨_, (List.forall₂_iff_get.mp meant).2 index inside
          ((List.forall₂_iff_get.mp meant).1 ▸ inside)⟩
      obtain ⟨type, found, -⟩ := MaterialProperty.ofRecord_eq_ok_iff.mp given
      exact ValueType.exists_ofCode?_iff.mp ⟨type, found⟩
    have found : bytes[16 + 24 * index + 4]? = some records[index].typeCode := by
      rw [Nat.add_assoc, ← List.getElem?_drop, whole, List.drop_left' (by simp),
        PropertyRecord.getElem?_typeCode records inside]
    rwa [List.getD_eq_getElem?_getD, found]

end MaterialUse

namespace Payload

/-- The layout of the payloads with a material, whatever their type. -/
theorem fits_iff_of_usesMaterial {typeId : StringId} (uses : TypeId.usesMaterial typeId)
    (bytes : Bytes) : Fits typeId bytes ↔ bytes.length = 16 + 24 * (bytes.wordAt 12).toNat ∧
      ∀ index < (bytes.wordAt 12).toNat, bytes.getD (16 + 24 * index + 4) 0 ≤ 9 := by
  simp only [TypeId.usesMaterial, Bool.or_eq_true, beq_iff_eq] at uses
  rcases uses with (((rfl | rfl) | rfl) | rfl) | rfl <;> rfl

/-- Payloads of unknown type fit whatever they are. -/
theorem fits_of_unknown {typeId : StringId} (unknown : typeId ∉ TypeId.known) (bytes : Bytes) :
    Fits typeId bytes := by
  simp only [TypeId.known, List.mem_cons, List.not_mem_nil, or_false, not_or] at unknown
  simp [Fits, TypeId.usesMaterial, unknown]

/-- Bytes that spell a payload have the lengths, counts and codes of its type. -/
theorem fits_of_spells {typeId : StringId} {bytes : Bytes} {payload : Payload}
    (spelled : Spells typeId bytes payload) : Fits typeId bytes := by
  cases payload with
  | camera =>
      obtain ⟨rfl, rfl⟩ := spelled
      simp [Fits]
  | light content =>
      obtain ⟨rfl, rfl⟩ := spelled
      have code : content.encode.wordAt 0 = content.type.code := by
        simp only [Light.encode, List.append_assoc]
        exact Bytes.wordAt_zero _ _
      simp +decide only [Fits, if_true, if_false, code, Light.length_encode, true_and]
      cases content.type <;> decide
  | sunlight content =>
      obtain ⟨rfl, rfl⟩ := spelled
      simp +decide [Fits]
  | mesh content =>
      obtain ⟨rfl, rfl, few⟩ := spelled
      have count : (content.encode.wordAt 4).toNat = content.subMeshMaterials.length := by
        rw [Mesh.encode, encodeLength, List.append_assoc,
          Bytes.wordAt_append (by simp), UInt32.toNat_ofNat_of_lt' few]
      simp +decide [Fits, count]
  | skeletonMesh animation content =>
      obtain ⟨rfl, rfl, few⟩ := spelled
      have count : ((Bytes.ofUInt32 animation.raw ++ content.encode).wordAt 8).toNat =
          content.subMeshMaterials.length := by
        rw [Mesh.encode, encodeLength, List.append_assoc, ← List.append_assoc,
          Bytes.wordAt_append (by simp), UInt32.toNat_ofNat_of_lt' few]
      simp +decide [Fits, count]
      omega
  | material content =>
      obtain ⟨uses, spelled⟩ := spelled
      exact (fits_iff_of_usesMaterial uses bytes).mpr spelled.fits
  | unknown content => exact fits_of_unknown spelled.1 bytes

/-- A byte string spells a payload of a type exactly if it fits the type. -/
theorem exists_spells_iff_fits {typeId : StringId} {bytes : Bytes} :
    (∃ payload, Spells typeId bytes payload) ↔ Fits typeId bytes := by
  constructor
  · rintro ⟨payload, spelled⟩
    exact fits_of_spells spelled
  · intro fits
    rw [Fits] at fits
    split at fits
    next camera => exact ⟨.camera, camera, fits⟩
    split at fits
    next light =>
      obtain ⟨content, spelled⟩ := Light.exists_encode fits.1 fits.2
      exact ⟨.light content, light, spelled⟩
    split at fits
    next sunlight =>
      obtain ⟨content, spelled⟩ := Sunlight.exists_encode fits
      exact ⟨.sunlight content, sunlight, spelled⟩
    split at fits
    next mesh =>
      obtain ⟨content, spelled, few⟩ := Mesh.exists_encode fits
      exact ⟨.mesh content, mesh, spelled, few⟩
    split at fits
    next skeletonMesh =>
      obtain ⟨animation, content, spelled, few⟩ := Mesh.exists_skeleton fits
      exact ⟨.skeletonMesh animation content, skeletonMesh, spelled, few⟩
    split at fits
    next uses =>
      obtain ⟨use, spelled⟩ := MaterialUse.exists_spelled fits.1 fits.2
      exact ⟨.material use, uses, spelled⟩
    next => exact ⟨.unknown bytes, by simp_all [TypeId.known, TypeId.usesMaterial], rfl⟩

/-- Decoding the bytes of a payload accepts what spells a payload of its type. -/
theorem decode_eq_ok_iff {typeId : StringId} {bytes : Bytes} {payload : Payload} :
    decode typeId bytes = .ok payload ↔ Spells typeId bytes payload := by
  rw [decode]
  cases known : reader? typeId with
  | none =>
      have unknown := not_mem_known known
      constructor
      · intro decoded
        cases decoded
        exact ⟨unknown, rfl⟩
      · intro spelled
        cases payload with
        | unknown content => rw [spelled.2]
        | material content => exact (unknown (TypeId.mem_known_of_usesMaterial spelled.1)).elim
        | _ => exact (unknown (spelled.1 ▸ by decide)).elim
  | some reader =>
      exact (reader?_takes known).whole_eq_ok_iff fun cursor =>
        .sizeMismatch cursor.offset bytes.length

end Payload

end SceneForge
