import SceneForge.Proofs.Container
import SceneForge.Proofs.Deflate.Capping

/-!
# The frame of a container

A container that is accepted consists of its header and a stream, and the two sizes in
the header are those of the stream and of the data. So it is accepted neither with bytes
missing, nor with more bytes, nor with another size in its header, and what is reported is
known.
-/

namespace SceneForge

namespace ContainerHeader

/-- Sixteen bytes are the header that they are read as. -/
theorem encode_of_length {bytes : Bytes} (length : bytes.length = size) :
    encode ⟨⟨Bytes.toUInt32 (bytes.take 4)⟩, Bytes.toUInt32 ((bytes.drop 4).take 4),
      Bytes.toUInt32 ((bytes.drop 8).take 4), Bytes.toUInt32 ((bytes.drop 12).take 4)⟩ = bytes := by
  rw [size] at length
  have word {start : Nat} (inside : start + 4 ≤ bytes.length) :
      Bytes.ofUInt32 (Bytes.toUInt32 ((bytes.drop start).take 4)) = (bytes.drop start).take 4 := by
    apply Bytes.ofUInt32_toUInt32
    rw [List.length_take, List.length_drop]
    omega
  have next (start : Nat) : bytes.drop (start + 4) = (bytes.drop start).drop 4 := by
    rw [List.drop_drop]
  have last : ((bytes.drop 12).take 4) = bytes.drop 12 := by
    apply List.take_of_length_le
    rw [List.length_drop]
    omega
  have first := @word 0 (by omega)
  rw [List.drop_zero] at first
  rw [encode, first, word (by omega), word (by omega), word (by omega), last, next 8,
    List.append_assoc, List.take_append_drop, next 4, List.append_assoc, List.take_append_drop,
    List.take_append_drop]

/-- What a header is read from begins with its bytes. -/
theorem exists_of_decode {bytes : Bytes} {type : StringId} {version : UInt32}
    {header : ContainerHeader} (decoded : decode bytes type version = .ok header) :
    ∃ stream, bytes = header.encode ++ stream ∧ header.type = type ∧ header.version = version := by
  rw [decode] at decoded
  split at decoded
  next => cases decoded
  next front stream split =>
    obtain ⟨whole, length⟩ := splitAt?_eq_some_iff.mp split
    have same := encode_of_length length
    simp only [Nat.mul_zero, List.drop_zero] at decoded
    split at decoded
    next => cases decoded
    next sameType =>
      split at decoded
      next => cases decoded
      next sameVersion =>
        cases decoded
        exact ⟨stream, whole.trans (congrArg (· ++ stream) same.symm), not_not.mp sameType,
          not_not.mp sameVersion⟩

theorem decode_eq_truncated {bytes : Bytes} (short : bytes.length < size) (type : StringId)
    (version : UInt32) : decode bytes type version = .error (.truncated size bytes.length) := by
  rw [decode, splitAt?_eq_none_iff.mpr short]

end ContainerHeader

namespace Container

variable {type : StringId} {version : UInt32} {header : ContainerHeader} {bytes stream data : Bytes}

/-- How the parts of a container of data fit together. -/
structure Frames (type : StringId) (version : UInt32) (header : ContainerHeader)
    (stream data : Bytes) : Prop where
  type_eq : header.type = type
  version_eq : header.version = version
  compressedSize : stream.length = header.compressedSize.toNat
  decompressedSize : data.length = header.decompressedSize.toNat

/-- Behind the header of the expected type and version, the stream is looked at. -/
theorem decompress_encode_append (header : ContainerHeader) (stream : Bytes) :
    decompress (header.encode ++ stream) header.type header.version =
      if stream.length ≠ header.compressedSize.toNat then
        .error (.sizeMismatch header.compressedSize.toNat stream.length)
      else
        match Deflate.inflate (header.decompressedSize.toNat + 1) stream with
        | none => .error .unreadable
        | some data =>
            if data.length ≠ header.decompressedSize.toNat then
              .error (.sizeMismatch header.decompressedSize.toNat data.length)
            else .ok data := by
  rw [decompress, header.decode_encode, ← ContainerHeader.length_encode header, List.drop_left]
  simp only [bind, Except.bind]
  split <;> rfl

/-- A container that is accepted is a header before a stream that decompresses to the data,
and both sizes in the header are right. -/
theorem exists_of_decompress (opened : decompress bytes type version = .ok data) :
    ∃ header stream, bytes = header.encode ++ stream ∧ Frames type version header stream data ∧
      Deflate.inflate (header.decompressedSize.toNat + 1) stream = some data := by
  have accepted := opened
  obtain ⟨header, decoded, -⟩ := bind_eq_ok_iff.mp opened
  obtain ⟨stream, rfl, rfl, rfl⟩ := ContainerHeader.exists_of_decode decoded
  rw [decompress_encode_append] at accepted
  split at accepted
  next => cases accepted
  next streamSize =>
    split at accepted
    next => cases accepted
    next found inflated =>
      split at accepted
      next => cases accepted
      next dataSize =>
        cases accepted
        exact ⟨header, stream, rfl, ⟨rfl, rfl, not_not.mp streamSize, not_not.mp dataSize⟩, inflated⟩

/-- Without its last bytes a header is not whole. -/
theorem decompress_of_length_lt (short : bytes.length < ContainerHeader.size) (type : StringId)
    (version : UInt32) : decompress bytes type version = .error (.truncated 16 bytes.length) := by
  rw [decompress, ContainerHeader.decode_eq_truncated short]
  rfl

/-- Without its last bytes a stream is too short. -/
theorem Frames.decompress_front (frames : Frames type version header stream data)
    {front back : Bytes} (split : front ++ back = header.encode ++ stream) (missing : back ≠ [])
    (long : ContainerHeader.size ≤ front.length) :
    decompress front type version =
      .error (.sizeMismatch stream.length (front.length - ContainerHeader.size)) := by
  have backLength := List.length_pos_iff.mpr missing
  have lengths := congrArg List.length split
  rw [List.length_append, List.length_append, header.length_encode] at lengths
  -- Bytes are missing only behind the header, which is read as it was written.
  obtain ⟨part, rfl⟩ : header.encode <+: front :=
    List.prefix_of_prefix_length_le ⟨stream, rfl⟩ ⟨back, split⟩
      (by rw [header.length_encode]; exact long)
  rw [List.length_append, header.length_encode] at lengths ⊢
  have shorter : part.length ≠ header.compressedSize.toNat := by
    rw [← frames.compressedSize]
    omega
  rw [← frames.type_eq, ← frames.version_eq, decompress_encode_append, if_pos shorter,
    frames.compressedSize, Nat.add_sub_cancel_left]

/-- With more bytes the stream is too long. -/
theorem Frames.decompress_append (frames : Frames type version header stream data) {more : Bytes}
    (added : more ≠ []) :
    decompress (header.encode ++ stream ++ more) type version =
      .error (.sizeMismatch stream.length (stream.length + more.length)) := by
  have moreLength := List.length_pos_iff.mpr added
  have longer : (stream ++ more).length ≠ header.compressedSize.toNat := by
    rw [← frames.compressedSize, List.length_append]
    omega
  rw [List.append_assoc, ← frames.type_eq, ← frames.version_eq, decompress_encode_append,
    if_pos longer, ← frames.compressedSize, List.length_append]

/-- With another size of the data in its header a container is refused. Of longer data one
byte more than that size is decompressed. -/
theorem Frames.decompress_resized (frames : Frames type version header stream data)
    (inflated : Deflate.inflate (header.decompressedSize.toNat + 1) stream = some data)
    {size : UInt32} (other : size ≠ header.decompressedSize) :
    decompress ({ header with decompressedSize := size }.encode ++ stream) type version =
      .error (.sizeMismatch size.toNat (min data.length (size.toNat + 1))) := by
  obtain ⟨rfl, rfl, compressedSize, decompressedSize⟩ := frames
  have whole : data.length < header.decompressedSize.toNat + 1 := by omega
  have differs : data.length ≠ size.toNat := by
    rw [decompressedSize]
    exact fun same => other (UInt32.toNat_inj.mp same).symm
  have length : (data.take (size.toNat + 1)).length = min data.length (size.toNat + 1) := by
    rw [List.length_take, Nat.min_comm]
  have found := decompress_encode_append { header with decompressedSize := size } stream
  rw [if_neg (not_not_intro compressedSize), Deflate.inflate_of_inflate_lt inflated whole] at found
  dsimp only at found
  rwa [if_pos (by rw [length]; omega), length] at found

/-- A container of another type or version than expected is refused; the type is looked at
first. -/
theorem decompress_of_compress_ne {compressor : Compressor} {container : Bytes}
    (made : compress compressor type version data = .ok container) (expected : StringId)
    (expectedVersion : UInt32) :
    (expected ≠ type → decompress container expected expectedVersion =
      .error (.typeMismatch expected type)) ∧
    (expectedVersion ≠ version → decompress container type expectedVersion =
      .error (.versionMismatch expectedVersion version)) := by
  obtain ⟨header, stream, rfl, frames, -⟩ := exists_of_decompress (decompress_of_compress made)
  rw [decompress, decompress, ContainerHeader.decode_encode_append,
    ContainerHeader.decode_encode_append, frames.type_eq, frames.version_eq]
  constructor
  · intro differs
    rw [if_pos differs.symm]
    rfl
  · intro differs
    rw [if_neg (not_not_intro rfl), if_pos differs.symm]
    rfl

/-- Data comes back out of the container made of it, however it is compressed, and only as the
type and version that the container was made as. A container that is accepted is a header of sixteen bytes before
a stream, with the type and version expected and both sizes right. It is refused with bytes
missing, with more bytes, and with another size of the data in its header. -/
theorem framed (compressor : Compressor) (type : StringId) (version : UInt32) :
    (∀ data container, compress compressor type version data = .ok container →
      decompress container type version = .ok data ∧
      ∀ expected expectedVersion,
        (expected ≠ type → decompress container expected expectedVersion =
          .error (.typeMismatch expected type)) ∧
        (expectedVersion ≠ version → decompress container type expectedVersion =
          .error (.versionMismatch expectedVersion version))) ∧
    ∀ bytes data, decompress bytes type version = .ok data →
      ∃ header stream, bytes = header.encode ++ stream ∧ header.encode.length = 16 ∧
        Frames type version header stream data ∧
        (∀ front back, front ++ back = bytes → back ≠ [] →
          (front.length < 16 →
            decompress front type version = .error (.truncated 16 front.length)) ∧
          (16 ≤ front.length → decompress front type version =
            .error (.sizeMismatch stream.length (front.length - 16)))) ∧
        (∀ more, more ≠ [] → decompress (bytes ++ more) type version =
          .error (.sizeMismatch stream.length (stream.length + more.length))) ∧
        ∀ size, size ≠ header.decompressedSize →
          decompress ({ header with decompressedSize := size }.encode ++ stream) type version =
            .error (.sizeMismatch size.toNat (min data.length (size.toNat + 1))) := by
  constructor
  · intro data container made
    exact ⟨decompress_of_compress made, decompress_of_compress_ne made⟩
  · intro bytes data opened
    obtain ⟨header, stream, rfl, frames, inflated⟩ := exists_of_decompress opened
    refine ⟨header, stream, rfl, header.length_encode, frames, ?_,
      fun more added => frames.decompress_append added,
      fun size other => frames.decompress_resized inflated other⟩
    intro front back split missing
    exact ⟨fun short => decompress_of_length_lt short type version, frames.decompress_front split missing⟩

theorem framed_three :
    ∃ container, compress .standard ⟨0x204e4353⟩ 1 [1, 2, 3] = .ok container ∧
      decompress container ⟨0x204e4353⟩ 1 = .ok [1, 2, 3] ∧
      decompress container ⟨0x204e4353⟩ 2 = .error (.versionMismatch 2 1) ∧
      decompress [] ⟨0x204e4353⟩ 1 = .error (.truncated 16 0) ∧
      ∃ size, decompress (container ++ [0]) ⟨0x204e4353⟩ 1 = .error (.sizeMismatch size (size + 1)) := by
  obtain ⟨container, made⟩ := exists_compress ⟨0x204e4353⟩ 1 (show [1, 2, 3].length ≤ 65535 by decide)
  obtain ⟨opens, refused⟩ := (framed .standard ⟨0x204e4353⟩ 1).1 [1, 2, 3] container made
  obtain ⟨header, stream, whole, headerSize, -, missing, added, -⟩ :=
    (framed .standard ⟨0x204e4353⟩ 1).2 container [1, 2, 3] opens
  refine ⟨container, made, opens, (refused ⟨0x204e4353⟩ 2).2 (by decide), ?_, stream.length, ?_⟩
  · refine (missing [] container rfl ?_).1 (by decide)
    rintro rfl
    have length := congrArg List.length whole
    rw [List.length_append, headerSize, List.length_nil] at length
    omega
  · exact added [0] (by decide)

end Container

end SceneForge
