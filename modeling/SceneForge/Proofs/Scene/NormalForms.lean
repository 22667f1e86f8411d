import SceneForge.Proofs.Scene.Encoding

/-!
# Normal forms of payloads

A payload that was written is read back. The other way round, writing what was read need
not give the same bytes: the record of a material property has bits without a meaning. It
has padding, a mark of which only counts whether it is zero, words that its type does not
use, and a truth value that may be any word. Writing puts each record into its normal form
and leaves everything else as it was (`encode_eq_normalize`).
-/

namespace SceneForge

namespace ValueType

/-- The words of a value in normal form: those that its type does not use are zero, and a
truth value is zero or one. -/
def normalWords (type : ValueType) (words : Words) : Words :=
  .ofList ((words.toList.take type.componentCount).map fun word =>
    if type = boolean ∧ word ≠ 0 then 1 else word)

/-- What is written for a value that was read are its words in normal form. -/
theorem toWords_ofWords (type : ValueType) (words : Words) :
    (PropertyValue.ofWords type words).toWords = type.normalWords words := by
  cases type with
  | boolean =>
      by_cases zero : words.first = 0 <;>
        simp [PropertyValue.ofWords, PropertyValue.toWords, normalWords, componentCount, Words.toList,
          Words.ofList, zero]
  | _ =>
      simp [PropertyValue.ofWords, PropertyValue.toWords, normalWords, componentCount, Words.toList,
        Words.ofList]

/-- Words are in normal form if unused ones are zero, and a truth value is zero or one. -/
theorem normalWords_eq_self_iff {type : ValueType} {words : Words} :
    type.normalWords words = words ↔
      (∀ word ∈ words.toList.drop type.componentCount, word = 0) ∧
        (type = boolean → words.first = 0 ∨ words.first = 1) := by
  obtain ⟨first, second, third, fourth⟩ := words
  cases type with
  | boolean =>
      by_cases zero : first = 0
      · simp [normalWords, componentCount, Words.toList, Words.ofList, zero, @eq_comm _ (0 : UInt32)]
      · simp [normalWords, componentCount, Words.toList, Words.ofList, zero, @eq_comm _ (0 : UInt32),
          @eq_comm _ (1 : UInt32), and_comm, and_assoc]
  | _ =>
      simp [normalWords, componentCount, Words.toList, Words.ofList, @eq_comm _ (0 : UInt32)]

end ValueType

namespace PropertyRecord

variable {record : PropertyRecord} {property : MaterialProperty}

/-- The normal form of a record whose type is known. -/
def normalize (record : PropertyRecord) : PropertyRecord :=
  match ValueType.ofCode? record.typeCode with
  | none => record
  | some type => { record with
      overwritten := if record.overwritten = 0 then 0 else 1
      padding := 0
      words := type.normalWords record.words }

/-- Whether a record is in normal form. -/
structure IsNormal (record : PropertyRecord) : Prop where
  padding_eq : record.padding = 0
  overwritten_eq : record.overwritten = 0 ∨ record.overwritten = 1
  unused_eq : ∀ type : ValueType, type.code = record.typeCode →
    ∀ word ∈ record.words.toList.drop type.componentCount, word = 0
  boolean_eq : record.typeCode = ValueType.boolean.code →
    record.words.first = 0 ∨ record.words.first = 1

/-- What is written for a property that was read is the normal form of its record. -/
theorem toRecord_of_ofRecord (read : MaterialProperty.ofRecord record = .ok property) :
    property.toRecord = record.normalize := by
  obtain ⟨type, coded, rfl⟩ := MaterialProperty.ofRecord_eq_ok_iff.mp read
  have code := ValueType.ofCode?_eq_some_iff.mp coded
  have mark : (if (record.overwritten != 0) = true then 1 else 0 : UInt8) =
      if record.overwritten = 0 then 0 else 1 := by
    by_cases zero : record.overwritten = 0 <;> simp [zero]
  rw [normalize, coded, MaterialProperty.toRecord]
  simp only [PropertyValue.type_ofWords, ValueType.toWords_ofWords, code, mark]

/-- Exactly the records in normal form are their own normal forms. -/
theorem normalize_eq_self_iff (read : MaterialProperty.ofRecord record = .ok property) :
    record.normalize = record ↔ record.IsNormal := by
  obtain ⟨type, coded, -⟩ := MaterialProperty.ofRecord_eq_ok_iff.mp read
  have code := ValueType.ofCode?_eq_some_iff.mp coded
  have only {other : ValueType} (same : other.code = record.typeCode) : other = type :=
    Option.some.inj ((ValueType.ofCode?_eq_some_iff.mpr same).symm.trans coded)
  have parts : record.normalize = record ↔
      (if record.overwritten = 0 then 0 else 1) = record.overwritten ∧ 0 = record.padding ∧
        type.normalWords record.words = record.words := by
    rw [normalize, coded]
    cases record
    simp
  rw [parts, ValueType.normalWords_eq_self_iff]
  constructor
  · rintro ⟨mark, padding, unused, boolean⟩
    refine ⟨padding.symm, ?_, fun other same => only same ▸ unused, fun same => boolean ?_⟩
    · by_cases zero : record.overwritten = 0
      · exact .inl zero
      · rw [if_neg zero] at mark
        exact .inr mark.symm
    · exact (only same.symm).symm
  · intro normal
    refine ⟨?_, normal.padding_eq.symm, normal.unused_eq type code, ?_⟩
    · rcases normal.overwritten_eq with mark | mark <;> rw [mark] <;> rfl
    · rintro rfl
      exact normal.boolean_eq code.symm

/-- The record that lies in so many bytes. -/
def ofBytes (bytes : Bytes) : PropertyRecord where
  id := ⟨bytes.wordAt 0⟩
  typeCode := bytes.getD 4 0
  overwritten := bytes.getD 5 0
  padding := UInt16.ofNat (Bytes.toNat ((bytes.drop 6).take 2))
  words := ⟨bytes.wordAt 8, bytes.wordAt 12, bytes.wordAt 16, bytes.wordAt 20⟩

theorem ofBytes_encode (record : PropertyRecord) : ofBytes record.encode = record := by
  have padding : UInt16.ofNat (Bytes.toNat (Bytes.ofNat 2 record.padding.toNat)) = record.padding := by
    have small : record.padding.toNat < 256 ^ 2 := record.padding.toNat_lt
    rw [Bytes.toNat_ofNat, Nat.mod_eq_of_lt small, UInt16.ofNat_toNat]
  calc ofBytes record.encode
      = ⟨⟨Bytes.toUInt32 (Bytes.ofUInt32 record.id.raw)⟩, record.typeCode, record.overwritten,
          UInt16.ofNat (Bytes.toNat (Bytes.ofNat 2 record.padding.toNat)),
          ⟨Bytes.toUInt32 (Bytes.ofUInt32 record.words.first),
            Bytes.toUInt32 (Bytes.ofUInt32 record.words.second),
            Bytes.toUInt32 (Bytes.ofUInt32 record.words.third),
            Bytes.toUInt32 (Bytes.ofUInt32 record.words.fourth)⟩⟩ := rfl
    _ = record := by simp only [Bytes.toUInt32_ofUInt32, padding]

end PropertyRecord

/-- The records of properties are those of properties that were read, and writing these gives
their normal forms. -/
theorem PropertyRecord.map_normalize {records : List PropertyRecord} {properties : List MaterialProperty}
    (meant : List.Forall₂ (fun record property => MaterialProperty.ofRecord record = .ok property)
      records properties) :
    (∀ record ∈ records, ∃ property, MaterialProperty.ofRecord record = .ok property) ∧
      records.map normalize = properties.map MaterialProperty.toRecord := by
  induction meant with
  | nil => simp
  | @cons record property records properties read _ ih =>
      refine ⟨List.forall_mem_cons.mpr ⟨⟨property, read⟩, ih.1⟩, ?_⟩
      rw [List.map_cons, List.map_cons, toRecord_of_ofRecord read, ih.2]

/-- A material's bytes are its head and its records, of which writing makes normal forms. -/
theorem MaterialUse.Spelled.exists_records {use : MaterialUse} {bytes : Bytes}
    (spelled : use.Spelled bytes) :
    ∃ (head : Bytes) (records : List PropertyRecord), head.length = Payload.materialSize ∧
      bytes = head ++ records.flatMap PropertyRecord.encode ∧
      use.encode = head ++ (records.map PropertyRecord.normalize).flatMap PropertyRecord.encode ∧
      ∀ record ∈ records, ∃ property, MaterialProperty.ofRecord record = .ok property := by
  obtain ⟨records, whole, -, meant⟩ := spelled
  obtain ⟨readable, written⟩ := PropertyRecord.map_normalize meant
  refine ⟨_, records, ?_, whole, ?_, readable⟩
  · simp [Payload.materialSize]
  · rw [written, List.flatMap_map, MaterialUse.encode, encodeLength, ← meant.length_eq]
    rfl

namespace Payload

variable {typeId : StringId} {bytes : Bytes} {payload : Payload}

/-- Whether items of a type hold payloads of this form. -/
def OfType (typeId : StringId) : Payload → Prop
  | camera => typeId = TypeId.camera
  | light _ => typeId = TypeId.light
  | sunlight _ => typeId = TypeId.sunlight
  | mesh _ => typeId = TypeId.mesh
  | skeletonMesh _ _ => typeId = TypeId.skeletonMesh
  | material _ => TypeId.usesMaterial typeId
  | unknown _ => False

/-- Whether the stored count of a payload's list is the length of the list. -/
def CountsMatch : Payload → Prop
  | mesh content | skeletonMesh _ content =>
      (UInt32.ofNat content.subMeshMaterials.length).toNat = content.subMeshMaterials.length
  | material content => (UInt32.ofNat content.properties.length).toNat = content.properties.length
  | camera | light _ | sunlight _ | unknown _ => True

/-- The records of properties in the bytes of a payload. -/
def propertyRecords (typeId : StringId) (bytes : Bytes) : List PropertyRecord :=
  if TypeId.usesMaterial typeId then
    (Bytes.chunks PropertyRecord.size (bytes.drop materialSize)).map PropertyRecord.ofBytes
  else []

/-- The normal form of a payload's bytes: that of each record, and nothing else changes. -/
def normalize (typeId : StringId) (bytes : Bytes) : Bytes :=
  if TypeId.usesMaterial typeId then
    bytes.take materialSize ++
      (propertyRecords typeId bytes).flatMap fun record => record.normalize.encode
  else bytes

/-- The bytes of a payload spell it. -/
theorem spells_of_ofType (ofType : payload.OfType typeId) (counts : payload.CountsMatch) :
    Spells typeId payload.encode payload := by
  cases payload with
  | camera => exact ⟨ofType, rfl⟩
  | light content => exact ⟨ofType, rfl⟩
  | sunlight content => exact ⟨ofType, rfl⟩
  | mesh content => exact ⟨ofType, rfl, counts ▸ UInt32.toNat_lt _⟩
  | skeletonMesh animation content => exact ⟨ofType, rfl, counts ▸ UInt32.toNat_lt _⟩
  | material content => exact ⟨ofType, MaterialUse.encode_spelled (counts ▸ UInt32.toNat_lt _)⟩
  | unknown content => cases ofType

/-- A payload is spelled by its own bytes, whatever bytes it was read from. -/
theorem Spells.encode (spelled : Spells typeId bytes payload) :
    Spells typeId payload.encode payload := by
  cases payload with
  | camera => exact ⟨spelled.1, rfl⟩
  | light content => exact ⟨spelled.1, rfl⟩
  | sunlight content => exact ⟨spelled.1, rfl⟩
  | mesh content => exact ⟨spelled.1, rfl, spelled.2.2⟩
  | skeletonMesh animation content => exact ⟨spelled.1, rfl, spelled.2.2⟩
  | material content =>
      obtain ⟨uses, records, -, few, meant⟩ := spelled
      exact ⟨uses, MaterialUse.encode_spelled (meant.length_eq ▸ few)⟩
  | unknown content => exact ⟨spelled.1, rfl⟩

/-- Where no records are, nothing is changed by reading and writing. -/
theorem Spells.encode_eq (spelled : Spells typeId bytes payload)
    (plain : ¬TypeId.usesMaterial typeId) : payload.encode = bytes := by
  cases payload with
  | material content => exact absurd spelled.1 plain
  | camera => exact spelled.2.symm
  | light content => exact spelled.2.symm
  | sunlight content => exact spelled.2.symm
  | mesh content => exact spelled.2.1.symm
  | skeletonMesh animation content => exact spelled.2.1.symm
  | unknown content => exact spelled.2.symm

/-- Bytes of a type with a material spell one. -/
theorem Spells.exists_material (spelled : Spells typeId bytes payload)
    (uses : TypeId.usesMaterial typeId) : ∃ use, payload = .material use ∧ use.Spelled bytes := by
  cases payload with
  | material content => exact ⟨content, rfl, spelled.2⟩
  | unknown content => exact absurd (TypeId.mem_known_of_usesMaterial uses) spelled.1
  | _ =>
      rw [spelled.1] at uses
      exact absurd uses (by decide)

section Records

variable {head : Bytes} {records : List PropertyRecord}

theorem propertyRecords_append (uses : TypeId.usesMaterial typeId)
    (length : head.length = materialSize) :
    propertyRecords typeId (head ++ records.flatMap PropertyRecord.encode) = records := by
  have pieces : Bytes.chunks PropertyRecord.size (records.flatMap PropertyRecord.encode) =
      records.map PropertyRecord.encode := by
    rw [List.flatMap_def]
    refine Bytes.chunks_flatten (by decide) ?_
    exact List.forall_mem_map.mpr fun record _ => PropertyRecord.length_encode record
  rw [propertyRecords, if_pos uses, List.drop_left' length, pieces, List.map_map]
  simp [Function.comp_def, PropertyRecord.ofBytes_encode]

theorem normalize_append (uses : TypeId.usesMaterial typeId) (length : head.length = materialSize) :
    normalize typeId (head ++ records.flatMap PropertyRecord.encode) =
      head ++ (records.map PropertyRecord.normalize).flatMap PropertyRecord.encode := by
  rw [normalize, if_pos uses, List.take_left' length, propertyRecords_append uses length,
    List.flatMap_map]

end Records

/-- Writing a payload that was read gives the normal form of the bytes. -/
theorem Spells.encode_eq_normalize (spelled : Spells typeId bytes payload) :
    payload.encode = normalize typeId bytes := by
  by_cases uses : TypeId.usesMaterial typeId
  · obtain ⟨use, rfl, spelledUse⟩ := spelled.exists_material uses
    obtain ⟨head, records, length, rfl, written, -⟩ := spelledUse.exists_records
    rw [normalize_append uses length]
    exact written
  · rw [normalize, if_neg uses]
    exact spelled.encode_eq uses

/-- Normal forms are as long as what they are the normal forms of. -/
theorem Spells.length_normalize (spelled : Spells typeId bytes payload) :
    (normalize typeId bytes).length = bytes.length := by
  by_cases uses : TypeId.usesMaterial typeId
  · obtain ⟨use, rfl, spelledUse⟩ := spelled.exists_material uses
    obtain ⟨head, records, length, rfl, -⟩ := spelledUse.exists_records
    rw [normalize_append uses length]
    simp [List.length_flatMap, Function.comp_def]
  · rw [normalize, if_neg uses]

/-- Bytes are in normal form exactly if each record in them is. -/
theorem Spells.normalize_eq_self_iff (spelled : Spells typeId bytes payload) :
    normalize typeId bytes = bytes ↔ ∀ record ∈ propertyRecords typeId bytes, record.IsNormal := by
  by_cases uses : TypeId.usesMaterial typeId
  · obtain ⟨use, rfl, spelledUse⟩ := spelled.exists_material uses
    obtain ⟨head, records, length, rfl, -, readable⟩ := spelledUse.exists_records
    have normal : ∀ record ∈ records, (record.normalize = record ↔ record.IsNormal) := by
      intro record member
      obtain ⟨property, read⟩ := readable record member
      exact PropertyRecord.normalize_eq_self_iff read
    have unchanged : normalize typeId (head ++ records.flatMap PropertyRecord.encode) =
        head ++ records.flatMap PropertyRecord.encode ↔
          records.map PropertyRecord.normalize = records.map id := by
      rw [normalize_append uses length, List.map_id]
      constructor
      · intro same
        have again := congrArg (propertyRecords typeId) same
        rwa [propertyRecords_append uses length, propertyRecords_append uses length] at again
      · intro same
        rw [same]
    rw [unchanged, List.map_inj_left, propertyRecords_append uses length]
    exact forall₂_congr normal
  · rw [normalize, if_neg uses, propertyRecords, if_neg uses]
    simp

/-- A payload whose counts are the lengths of its lists takes as many bytes as its size says,
and is read back from them. Writing a payload that was read gives the normal form of what it
was read from, which is equally long. A normal form is its own, stores the same payload, and
is what was there exactly if each record of a property was already in normal form. -/
theorem recoded (typeId : StringId) :
    (∀ payload : Payload, payload.OfType typeId → payload.CountsMatch →
      payload.encode.length = payload.size ∧ decode typeId payload.encode = .ok payload) ∧
    ∀ bytes payload, decode typeId bytes = .ok payload →
      payload.encode = normalize typeId bytes ∧
      payload.encode.length = bytes.length ∧
      normalize typeId (normalize typeId bytes) = normalize typeId bytes ∧
      decode typeId (normalize typeId bytes) = .ok payload ∧
      (normalize typeId bytes = bytes ↔
        ∀ record ∈ propertyRecords typeId bytes, record.IsNormal) := by
  refine ⟨fun payload ofType counts => ⟨payload.length_encode, ?_⟩, fun bytes payload decoded => ?_⟩
  · exact decode_eq_ok_iff.mpr (spells_of_ofType ofType counts)
  · have spelled := decode_eq_ok_iff.mp decoded
    have written := spelled.encode_eq_normalize
    have again := spelled.encode
    refine ⟨written, ?_, ?_, ?_, spelled.normalize_eq_self_iff⟩
    · rw [written, spelled.length_normalize]
    · rw [← written, ← again.encode_eq_normalize]
    · rw [← written]
      exact decode_eq_ok_iff.mpr again

/-- A sky whose only property is a truth value, stored with padding, the mark 2, the word 5
for true, and three unused words that are not zero. -/
theorem recoded_truth :
    let record : PropertyRecord := ⟨⟨7⟩, 0, 2, 0xbeef, ⟨5, 1, 2, 3⟩⟩
    let property : MaterialProperty := ⟨⟨7⟩, .boolean true, true⟩
    let use : MaterialUse := ⟨⟨1⟩, ⟨2⟩, .invalid, [property]⟩
    let bytes := use.encode.take materialSize ++ record.encode
    OfType TypeId.sky (.material use) ∧ CountsMatch (.material use) ∧
      decode TypeId.sky use.encode = .ok (.material use) ∧
      decode TypeId.sky bytes = .ok (.material use) ∧
      use.encode = normalize TypeId.sky bytes ∧ use.encode ≠ bytes := by
  intro record property use bytes
  have ofType : OfType TypeId.sky (.material use) := (by decide : TypeId.usesMaterial TypeId.sky)
  have counts : CountsMatch (.material use) := by rfl
  have decoded : decode TypeId.sky bytes = .ok (.material use) := by decide +kernel
  obtain ⟨written, -, -, -, -⟩ := (recoded TypeId.sky).2 bytes (.material use) decoded
  exact ⟨ofType, counts, ((recoded TypeId.sky).1 (.material use) ofType counts).2, decoded, written,
    by decide +kernel⟩

end Payload

end SceneForge
