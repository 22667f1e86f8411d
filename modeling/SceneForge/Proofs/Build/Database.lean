import Mathlib.Algebra.BigOperators.Group.List.Basic
import SceneForge.Build.Database
import SceneForge.Proofs.Reading
import SceneForge.Proofs.Text

/-!
# Reading databases back

Every part of a database is read back from its bytes, as long as its lengths have 64
bits. So is a database, up to the number of its records: what is read is never a
record that was not there.
-/

namespace SceneForge.Database

/-- Whether the length of a text has 64 bits. -/
def TextFits (text : String) : Prop := (Text.utf8 text).length < 2 ^ 64

/-- Whether the lengths in an input have 64 bits. -/
structure InputFits (input : RecordedInput) : Prop where
  target : TextFits input.target
  path : TextFits input.path

/-- Whether the lengths in a record have 64 bits. -/
structure RecordFits (record : ArtifactKey × List RecordedInput) : Prop where
  key : TextFits record.1.text
  count : record.2.length < 2 ^ 64
  inputs : ∀ input ∈ record.2, InputFits input

/-- Bytes that spell a text. -/
def SpellsText (bytes : Bytes) (text : String) : Prop :=
  ∃ content, content.length < 2 ^ 64 ∧ Text.ofUtf8 content = .ok text ∧
    bytes = encodeLength content.length ++ content

/-- Bytes that spell an input. -/
def SpellsInput (bytes : Bytes) (input : RecordedInput) : Prop :=
  ∃ target path, SpellsText target input.target ∧ SpellsText path input.path ∧
    bytes = target ++ (path ++ (input.fingerprint.bytes ++ Bytes.ofUInt32 input.version))

/-- Bytes that spell a record. -/
def SpellsRecord (bytes : Bytes) (record : ArtifactKey × List RecordedInput) : Prop :=
  ∃ key pieces, SpellsText key record.1.text ∧ record.2.length < 2 ^ 64 ∧
    List.Forall₂ SpellsInput pieces record.2 ∧
      bytes = key ++ (encodeLength record.2.length ++ pieces.flatten)

theorem takes_length :
    Reader.Takes length fun bytes count => count < 2 ^ 64 ∧ bytes = encodeLength count := by
  refine (Reader.Takes.longWord.map UInt64.toNat).congr fun bytes count => ?_
  constructor
  · rintro ⟨word, rfl, rfl⟩
    exact ⟨word.toNat_lt, rfl⟩
  · rintro ⟨small, rfl⟩
    have same : (UInt64.ofNat count).toNat = count := UInt64.toNat_ofNat_of_lt' small
    exact ⟨UInt64.ofNat count, by rw [Bytes.ofUInt64, same, encodeLength], same⟩

theorem takes_text : Reader.Takes text SpellsText := by
  refine (takes_length.bind fun count => (Reader.Takes.bytes count).bind fun content =>
    (?decodes : Reader.Takes _ fun bytes value =>
      bytes = [] ∧ Text.ofUtf8 content = .ok value)).congr fun bytes value => ?_
  case decodes =>
    cases Text.ofUtf8 content with
    | ok text => exact (Reader.Takes.pure text).congr fun bytes value => by simp
    | error error => exact (Reader.Takes.throw .unreadable).congr fun bytes value => by simp
  constructor
  · rintro ⟨_, _, _, rfl, ⟨small, rfl⟩, content, _, _, rfl, ⟨rfl, rfl⟩, rfl, decoded⟩
    exact ⟨_, small, decoded, by rw [List.append_nil]⟩
  · rintro ⟨content, small, decoded, rfl⟩
    exact ⟨content.length, _, content, rfl, ⟨small, rfl⟩, content, content, [],
      (List.append_nil content).symm, ⟨rfl, rfl⟩, rfl, decoded⟩

theorem takes_fingerprint :
    Reader.Takes fingerprint fun bytes value => bytes = value.bytes := by
  have sized (content : Bytes) :
      Reader.Takes (if h : content.length = 32 then (return ⟨content, h⟩ : Reader Fingerprint)
        else throw .unreadable) fun bytes value => bytes = [] ∧ content = value.bytes := by
    by_cases length : content.length = 32
    · rw [dif_pos length]
      refine (Reader.Takes.pure _).congr fun bytes value => ?_
      cases value
      simp
    · rw [dif_neg length]
      refine (Reader.Takes.throw .unreadable).congr fun bytes value => ?_
      constructor
      · exact False.elim
      · rintro ⟨-, rfl⟩
        exact length value.length_bytes
  refine ((Reader.Takes.bytes 32).bind sized).congr fun bytes value => ?_
  constructor
  · rintro ⟨_, _, _, rfl, ⟨rfl, -⟩, rfl, rfl⟩
    exact List.append_nil _
  · rintro rfl
    exact ⟨value.bytes, value.bytes, [], (List.append_nil _).symm, ⟨rfl, value.length_bytes⟩, rfl,
      rfl⟩

theorem takes_input : Reader.Takes input SpellsInput := by
  refine (takes_text.bind fun target => takes_text.bind fun path => takes_fingerprint.bind
    fun fingerprint => Reader.Takes.word.bind fun version =>
      Reader.Takes.pure (RecordedInput.mk target path fingerprint version)).congr fun bytes input => ?_
  constructor
  · rintro ⟨_, target, _, rfl, spelledTarget, _, path, _, rfl, spelledPath, _, _, _, rfl, rfl, _, _,
      _, rfl, rfl, rfl, rfl⟩
    exact ⟨target, path, spelledTarget, spelledPath, by rw [List.append_nil]⟩
  · rintro ⟨target, path, spelledTarget, spelledPath, rfl⟩
    exact ⟨_, target, _, rfl, spelledTarget, _, path, _, rfl, spelledPath, _, _, _, rfl, rfl, _, _,
      [], (List.append_nil _).symm, rfl, rfl, rfl⟩

theorem takes_record : Reader.Takes record SpellsRecord := by
  refine (takes_text.bind fun key => takes_length.bind fun count => (takes_input.replicate count).bind
    fun inputs => Reader.Takes.pure (ArtifactKey.mk key, inputs)).congr fun bytes record => ?_
  constructor
  · rintro ⟨_, key, _, rfl, spelledKey, _, _, _, rfl, ⟨small, rfl⟩, inputs, _, _, rfl,
      ⟨rfl, pieces, rfl, spelled⟩, rfl, rfl⟩
    exact ⟨key, pieces, spelledKey, small, spelled, by rw [List.append_nil]⟩
  · rintro ⟨key, pieces, spelledKey, small, spelled, rfl⟩
    exact ⟨_, key, _, rfl, spelledKey, _, _, _, rfl, ⟨small, rfl⟩, record.2, _, [],
      (List.append_nil _).symm, ⟨rfl, pieces, rfl, spelled⟩, rfl, rfl⟩

/-- Bytes that begin with the spelling of a database. -/
theorem takes_reader :
    Reader.Takes reader fun bytes database => ∃ records pieces,
      records.length < 2 ^ 64 ∧ List.Forall₂ SpellsRecord pieces records ∧
        database = ⟨database.version, .ofList records⟩ ∧
          bytes = Bytes.ofUInt32 database.version ++
            (encodeLength records.length ++ pieces.flatten) := by
  refine (Reader.Takes.word.bind fun version => takes_length.bind fun count =>
    (takes_record.replicate count).bind fun records =>
      Reader.Takes.pure (Database.mk version (.ofList records))).congr fun bytes database => ?_
  constructor
  · rintro ⟨version, _, _, rfl, rfl, _, _, _, rfl, ⟨small, rfl⟩, records, _, _, rfl,
      ⟨rfl, pieces, rfl, spelled⟩, rfl, rfl⟩
    exact ⟨records, pieces, small, spelled, rfl, by rw [List.append_nil]⟩
  · rintro ⟨records, pieces, small, spelled, whole, rfl⟩
    exact ⟨_, _, _, rfl, rfl, _, _, _, rfl, ⟨small, rfl⟩, records, _, [],
      (List.append_nil _).symm, ⟨rfl, pieces, rfl, spelled⟩, rfl, whole.symm⟩

/-- Bytes that spell records: how many there are, and one after another. -/
def SpellsRecords (bytes : Bytes) (records : List (ArtifactKey × List RecordedInput)) : Prop :=
  ∃ pieces, records.length < 2 ^ 64 ∧ List.Forall₂ SpellsRecord pieces records ∧
    bytes = encodeLength records.length ++ pieces.flatten

/-- Whether bytes begin with records as they are laid out now. -/
def BeginsWith (bytes : Bytes) (records : List (ArtifactKey × List RecordedInput)) : Prop :=
  ∃ body behind, SpellsRecords body records ∧ bytes = body ++ behind

/-- What is read is a version and the records behind it; what follows them is ignored. -/
theorem decode?_eq_some_iff {bytes : Bytes} {database : Database} :
    decode? bytes = some database ↔
      ∃ version rest records, bytes = Bytes.ofUInt32 version ++ rest ∧ BeginsWith rest records ∧
        database = ⟨version, .ofList records⟩ := by
  constructor
  · intro decoded
    rw [decode?] at decoded
    split at decoded
    next read =>
      cases decoded
      obtain ⟨_, ⟨records, pieces, small, spelled, whole, rfl⟩, split, -⟩ :=
        takes_reader.of_onBytes read
      rw [List.append_assoc] at split
      exact ⟨database.version, _, records, split, ⟨_, _, ⟨pieces, small, spelled, rfl⟩, rfl⟩, whole⟩
    next => cases decoded
  · rintro ⟨version, _, records, rfl, ⟨_, behind, ⟨pieces, small, spelled, rfl⟩, rfl⟩, rfl⟩
    have read := @Reader.Takes.onBytes_append _ _ _ takes_reader _ ⟨version, .ofList records⟩
      ⟨records, pieces, small, spelled, rfl, rfl⟩ behind
    rw [← List.append_assoc, decode?, read]

theorem spellsText_encode {text : String} (fits : TextFits text) :
    SpellsText (encodeText text) text :=
  ⟨Text.utf8 text, fits, Text.ofUtf8_utf8 text, rfl⟩

theorem spellsInput_encode {input : RecordedInput} (fits : InputFits input) :
    SpellsInput (encodeInput input) input := by
  refine ⟨_, _, spellsText_encode fits.target, spellsText_encode fits.path, ?_⟩
  rw [encodeInput, List.append_assoc, List.append_assoc]

theorem spellsRecord_encode {record : ArtifactKey × List RecordedInput} (fits : RecordFits record) :
    SpellsRecord (encodeRecord record) record := by
  refine ⟨_, record.2.map encodeInput, spellsText_encode fits.key, fits.count, ?_, ?_⟩
  · rw [List.forall₂_map_left_iff, List.forall₂_same]
    intro input member
    exact spellsInput_encode (fits.inputs input member)
  · rw [encodeRecord, List.append_assoc, List.flatMap_def]

/-- A length is written modulo 64 bits. -/
theorem encodeLength_mod (length : Nat) : encodeLength (length % 2 ^ 64) = encodeLength length := by
  have again := Bytes.ofNat_toNat (Bytes.ofNat 8 length)
  rwa [Bytes.length_ofNat, Bytes.toNat_ofNat] at again

/-- Records are read from their bytes, whatever follows. -/
theorem onBytes_reader {version : UInt32} {records : List (ArtifactKey × List RecordedInput)}
    (small : records.length < 2 ^ 64) (fits : ∀ record ∈ records, RecordFits record) (rest : Bytes) :
    ∃ after, reader.onBytes (Bytes.ofUInt32 version ++
      (encodeLength records.length ++ records.flatMap encodeRecord) ++ rest) =
        .ok (⟨version, .ofList records⟩, after) := by
  have spelled : List.Forall₂ SpellsRecord (records.map encodeRecord) records := by
    rw [List.forall₂_map_left_iff, List.forall₂_same]
    intro record member
    exact spellsRecord_encode (fits record member)
  rw [List.flatMap_def]
  refine ⟨_, (takes_reader _ ⟨version, .ofList records⟩ ⟨_, rest⟩).mpr ⟨_, ?_, rfl, rfl⟩⟩
  exact ⟨records, _, small, spelled, rfl, rfl⟩

/-- What is read of a database that was written are its first records, as many as their
number modulo 64 bits says. -/
theorem decode?_encode {version : UInt32} {records : BuildRecords}
    (fits : ∀ record ∈ records.entries, RecordFits record) :
    decode? (encode ⟨version, records⟩) =
      some ⟨version, .ofList (records.entries.take (records.size % 2 ^ 64))⟩ := by
  have number : (records.entries.take (records.size % 2 ^ 64)).length = records.size % 2 ^ 64 :=
    List.length_take_of_le (Nat.mod_le records.size (2 ^ 64))
  have small : (records.entries.take (records.size % 2 ^ 64)).length < 2 ^ 64 := by
    rw [number]
    exact Nat.mod_lt _ (Nat.two_pow_pos 64)
  obtain ⟨after, read⟩ := @onBytes_reader version _ small
    (fun record member => fits record (List.mem_of_mem_take member))
    ((records.entries.drop (records.size % 2 ^ 64)).flatMap encodeRecord)
  rw [number, encodeLength_mod, List.append_assoc, List.append_assoc, ← List.flatMap_append,
    List.take_append_drop, ← List.append_assoc] at read
  rw [decode?, encode, read]

theorem length_le_flatMap {α : Type} (spell : α → Bytes) {values : List α} {value : α}
    (member : value ∈ values) : (spell value).length ≤ (values.flatMap spell).length := by
  rw [List.flatMap_def]
  exact (List.sublist_flatten_of_mem (List.mem_map_of_mem member)).length_le

theorem length_le_length_flatMap {α : Type} {spell : α → Bytes}
    (long : ∀ value, 1 ≤ (spell value).length) (values : List α) :
    values.length ≤ (values.flatMap spell).length := by
  rw [List.length_flatMap, ← List.length_map (fun value => (spell value).length)]
  apply List.length_le_sum_of_one_le
  intro length member
  obtain ⟨value, -, rfl⟩ := List.mem_map.mp member
  exact long value

theorem length_encodeText (text : String) :
    (encodeText text).length = 8 + (Text.utf8 text).length := by
  rw [encodeText, List.length_append, encodeLength, Bytes.length_ofNat]

theorem length_encodeInput (input : RecordedInput) :
    (encodeInput input).length =
      (encodeText input.target).length + (encodeText input.path).length + 36 := by
  simp only [encodeInput, List.length_append, input.fingerprint.length_bytes, Bytes.length_ofUInt32]

theorem one_le_length_encodeInput (input : RecordedInput) : 1 ≤ (encodeInput input).length := by
  rw [length_encodeInput]
  omega

theorem length_encodeRecord (record : ArtifactKey × List RecordedInput) :
    (encodeRecord record).length =
      (encodeText record.1.text).length + 8 + (record.2.flatMap encodeInput).length := by
  simp only [encodeRecord, List.length_append, encodeLength, Bytes.length_ofNat]

theorem one_le_length_encodeRecord (record : ArtifactKey × List RecordedInput) :
    1 ≤ (encodeRecord record).length := by
  rw [length_encodeRecord]
  omega

/-- Lengths in a record have 64 bits if that of its bytes has. -/
theorem recordFits_of_length_lt {record : ArtifactKey × List RecordedInput}
    (small : (encodeRecord record).length < 2 ^ 64) : RecordFits record := by
  rw [length_encodeRecord, length_encodeText] at small
  have count := length_le_length_flatMap one_le_length_encodeInput record.2
  refine ⟨by rw [TextFits]; omega, by omega, fun input member => ?_⟩
  have inside := length_le_flatMap encodeInput member
  rw [length_encodeInput, length_encodeText, length_encodeText] at inside
  exact ⟨by rw [TextFits]; omega, by rw [TextFits]; omega⟩

/-- A database whose bytes a 64-bit machine can count is read back as it was written. -/
theorem decode?_encode_of_lt {database : Database} (small : (encode database).length < 2 ^ 64) :
    decode? (encode database) = some database := by
  have pieces : (database.records.entries.flatMap encodeRecord).length < 2 ^ 64 := by
    rw [encode, List.length_append] at small
    omega
  have fits : ∀ record ∈ database.records.entries, RecordFits record := fun record member =>
    recordFits_of_length_lt (Nat.lt_of_le_of_lt (length_le_flatMap encodeRecord member) pieces)
  have count : database.records.size < 2 ^ 64 :=
    Nat.lt_of_le_of_lt (length_le_length_flatMap one_le_length_encodeRecord _) pieces
  have all : database.records.entries.take database.records.size = database.records.entries :=
    List.take_length
  obtain ⟨version, records⟩ := database
  rw [decode?_encode fits, Nat.mod_eq_of_lt count, all, SortedMap.ofList_entries]

/-- A database that was read begins with its version. -/
theorem eq_append_of_decode? {bytes : Bytes} {database : Database}
    (decoded : decode? bytes = some database) :
    ∃ rest, bytes = Bytes.ofUInt32 database.version ++ rest := by
  obtain ⟨version, rest, records, rfl, -, rfl⟩ := decode?_eq_some_iff.mp decoded
  exact ⟨rest, rfl⟩

/-- Reading a database back gives no record that was not written. -/
theorem get?_of_decode? {version : UInt32} {records : BuildRecords} {database : Database}
    (fits : ∀ record ∈ records.entries, RecordFits record)
    (decoded : decode? (encode ⟨version, records⟩) = some database) {key : ArtifactKey}
    {inputs : List RecordedInput} (recorded : database.records.get? key = some inputs) :
    records.get? key = some inputs := by
  obtain rfl := Option.some.inj ((decode?_encode fits).symm.trans decoded)
  exact SortedMap.get?_eq_some_iff.mpr
    (List.mem_of_mem_take (SortedMap.mem_of_get?_ofList recorded))

end SceneForge.Database
