import SceneForge.Artifact
import SceneForge.Proofs.Deflate.RoundTrip
import SceneForge.Proofs.Reading
import SceneForge.Proofs.Results

/-!
# Opening containers

A container that was made from data opens to the data.
-/

namespace SceneForge

/-- Of words that stand one after another each is found at its place. -/
theorem Bytes.toUInt32_flatMap (words : List UInt32) {index : Nat} (inside : index < words.length) :
    toUInt32 (((words.flatMap ofUInt32).drop (4 * index)).take 4) = words[index] := by
  induction words generalizing index with
  | nil => cases inside
  | cons word words ih =>
      have length := length_ofUInt32 word
      rw [List.flatMap_cons]
      cases index with
      | zero =>
          rw [Nat.mul_zero, List.drop_zero, ← length, List.take_left, toUInt32_ofUInt32]
          rfl
      | succ index =>
          have later : 4 * (index + 1) = (ofUInt32 word).length + 4 * index := by omega
          rw [later, List.drop_length_add_append]
          exact ih (Nat.lt_of_succ_lt_succ inside)

namespace ContainerHeader

/-- The words of a header. -/
def words (header : ContainerHeader) : List UInt32 :=
  [header.type.raw, header.version, header.compressedSize, header.decompressedSize]

theorem encode_eq (header : ContainerHeader) : header.encode = header.words.flatMap Bytes.ofUInt32 := by
  simp [encode, words]

theorem length_encode (header : ContainerHeader) : header.encode.length = size := by
  simp [encode, size]

/-- The header that a container begins with is read, and is refused if it is of another
type or version; the type is looked at first. -/
theorem decode_encode_append (header : ContainerHeader) (stream : Bytes) (type : StringId)
    (version : UInt32) :
    decode (header.encode ++ stream) type version =
      if header.type ≠ type then .error (.typeMismatch type header.type)
      else if header.version ≠ version then .error (.versionMismatch version header.version)
      else .ok header := by
  have split : splitAt? size (header.encode ++ stream) = some (header.encode, stream) := by
    rw [← header.length_encode]
    exact splitAt?_append header.encode stream
  have word (index : Nat) (inside : index < header.words.length) :=
    Bytes.toUInt32_flatMap header.words inside
  rw [← encode_eq] at word
  have typeWord : Bytes.toUInt32 ((header.encode.drop (4 * 0)).take 4) = header.type.raw :=
    word 0 (show 0 < 4 by decide)
  have versionWord : Bytes.toUInt32 ((header.encode.drop (4 * 1)).take 4) = header.version :=
    word 1 (show 1 < 4 by decide)
  have compressedSize : Bytes.toUInt32 ((header.encode.drop (4 * 2)).take 4) =
      header.compressedSize := word 2 (show 2 < 4 by decide)
  have decompressedSize : Bytes.toUInt32 ((header.encode.drop (4 * 3)).take 4) =
      header.decompressedSize := word 3 (show 3 < 4 by decide)
  rw [decode, split]
  simp only [typeWord, versionWord, compressedSize, decompressedSize]

/-- The header that a container begins with is read back. -/
theorem decode_encode (header : ContainerHeader) (stream : Bytes) :
    decode (header.encode ++ stream) header.type header.version = .ok header := by
  rw [decode_encode_append, if_neg (not_not_intro rfl), if_neg (not_not_intro rfl)]

/-- A container begins with the type that it is opened as. -/
theorem type_eq_of_decode {word version : UInt32} {rest : Bytes} {type : StringId}
    {header : ContainerHeader}
    (decoded : decode (Bytes.ofUInt32 word ++ rest) type version = .ok header) : type = ⟨word⟩ := by
  rw [decode] at decoded
  split at decoded
  next => cases decoded
  next found stream split =>
    obtain ⟨whole, length⟩ := splitAt?_eq_some_iff.mp split
    have long : 4 ≤ found.length := by
      rw [length, size]
      decide
    have first : (found.drop (4 * 0)).take 4 = Bytes.ofUInt32 word := by
      rw [Nat.mul_zero, List.drop_zero, ← List.take_append_of_le_length long, ← whole]
      exact List.take_left' (Bytes.length_ofUInt32 word)
    simp only [first, Bytes.toUInt32_ofUInt32] at decoded
    split at decoded
    next => cases decoded
    next same => exact (not_not.mp same).symm

end ContainerHeader

namespace Container

/-- What `compress` makes is accepted, and the data is the same. -/
theorem decompress_of_compress {compressor : Compressor} {type : StringId} {version : UInt32}
    {data container : Bytes} (made : compress compressor type version data = .ok container) :
    decompress container type version = .ok data := by
  rw [compress] at made
  split at made
  next => cases made
  next dataFits =>
    split at made
    next => cases made
    next streamFits =>
      cases made
      have header := ContainerHeader.decode_encode
        ⟨type, version, UInt32.ofNat (compressor.deflate data).length, UInt32.ofNat data.length⟩
        (compressor.deflate data)
      generalize stream : compressor.deflate data = deflated at *
      have compressedSize : (UInt32.ofNat deflated.length).toNat = deflated.length :=
        UInt32.toNat_ofNat_of_lt' (Nat.lt_of_not_le streamFits)
      have decompressedSize : (UInt32.ofNat data.length).toNat = data.length :=
        UInt32.toNat_ofNat_of_lt' (Nat.lt_of_not_le dataFits)
      have inflated := compressor.inflate_deflate (Nat.le_succ data.length)
      rw [decompress, header, ← ContainerHeader.length_encode, List.drop_left]
      rw [stream] at inflated
      simp only [bind, Except.bind, compressedSize, decompressedSize, inflated]
      simp [pure, Except.pure]

theorem type_eq_of_decompress {word version : UInt32} {rest data : Bytes} {type : StringId}
    (opened : decompress (Bytes.ofUInt32 word ++ rest) type version = .ok data) : type = ⟨word⟩ := by
  obtain ⟨header, decoded, -⟩ := bind_eq_ok_iff.mp opened
  exact ContainerHeader.type_eq_of_decode decoded

/-- Data that fits one stored block can be wrapped. -/
theorem exists_compress (type : StringId) (version : UInt32) {data : Bytes}
    (fits : data.length ≤ Deflate.storedLimit) :
    ∃ container, compress .standard type version data = .ok container := by
  have streamFits : (Compressor.standard.deflate data).length ≤ data.length + 5 :=
    Deflate.length_deflate_le fits
  rw [Deflate.storedLimit] at fits
  rw [compress, if_neg (by omega), if_neg (by omega)]
  exact ⟨_, rfl⟩

end Container

/-- A scene buffer is read back from its artifact. -/
theorem Artifact.decode_of_encode {compressor : Compressor} {buffer artifact : Bytes}
    (made : Artifact.encode compressor buffer = .ok artifact) : Artifact.decode artifact = .ok buffer :=
  Container.decompress_of_compress made

end SceneForge
