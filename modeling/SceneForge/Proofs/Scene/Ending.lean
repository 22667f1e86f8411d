import SceneForge.Proofs.Scene.Acceptance

/-!
# Scene buffers end where they say

A scene buffer that is cut off anywhere is truncated, and one with more behind it has as
many trailing bytes. So no scene buffer is the beginning of another one.

Cutting off is about all readers: a reader `Streams` if bytes that are missing behind those
that it is given either do not matter to it, or make it say that it was given too few. This
is closed under sequencing, so what a payload is decoded to does not come into it: decoding
begins only where all bytes of a payload are there.
-/

namespace SceneForge

namespace Reader

variable {α β : Type}

/-- Whether a reader that would succeed with more bytes succeeds in the same way without
them, or reports that more bytes are needed than are available. -/
def Streams (reader : Reader α) : Prop :=
  ∀ (offset : Nat) (short missing : Bytes) (value : α) (after : Cursor),
    reader ⟨offset, short ++ missing⟩ = .ok (value, after) →
      (∃ rest, after.rest = rest ++ missing ∧
        reader ⟨offset, short⟩ = .ok (value, ⟨after.offset, rest⟩)) ∨
      ∃ needed available, available < needed ∧
        reader ⟨offset, short⟩ = .error (.truncated needed available)

namespace Streams

theorem pure (value : α) : Streams (Pure.pure value : Reader α) := by
  intro offset short missing result after read
  cases read
  exact .inl ⟨short, rfl, rfl⟩

/-- An outcome that does not depend on the bytes. -/
theorem lift (outcome : Except FormatError α) : Streams (liftM outcome : Reader α) := by
  cases outcome with
  | error error =>
      intro offset short missing result after read
      cases read
  | ok value => exact pure value

theorem bytes (count : Nat) : Streams (Reader.bytes count) := by
  intro offset short missing taken after read
  rw [Reader.bytes] at read ⊢
  cases whole : splitAt? count (short ++ missing) with
  | none =>
      rw [whole] at read
      cases read
  | some pair =>
      obtain ⟨front, behind⟩ := pair
      rw [whole] at read
      cases read
      obtain ⟨split, length⟩ := splitAt?_eq_some_iff.mp whole
      cases part : splitAt? count short with
      | none => exact .inr ⟨count, _, splitAt?_eq_none_iff.mp part, rfl⟩
      | some pair =>
          obtain ⟨first, rest⟩ := pair
          obtain ⟨rfl, sameLength⟩ := splitAt?_eq_some_iff.mp part
          rw [List.append_assoc] at split
          obtain ⟨rfl, rfl⟩ := List.append_inj split (sameLength.trans length.symm)
          exact .inl ⟨rest, rfl, rfl⟩

/-- One reader after another: whichever comes to the end first reports it. -/
theorem bind {first : Reader α} {next : α → Reader β} (streams : first.Streams)
    (nextStreams : ∀ value, (next value).Streams) : Streams (first >>= next) := by
  intro offset short missing result after read
  rw [bind_apply] at read ⊢
  cases firstRead : first ⟨offset, short ++ missing⟩ with
  | error error =>
      rw [firstRead] at read
      cases read
  | ok pair =>
      obtain ⟨value, moved, behind⟩ := pair
      rw [firstRead] at read
      rcases streams _ _ _ _ _ firstRead with ⟨rest, split, within⟩ | ⟨needed, available, less, failed⟩
      · rw [within]
        subst split
        exact nextStreams value _ _ _ _ _ read
      · rw [failed]
        exact .inr ⟨needed, available, less, rfl⟩

theorem map {reader : Reader α} (image : α → β) (streams : reader.Streams) :
    Streams (image <$> reader) :=
  streams.bind fun value => pure (image value)

theorem word : Reader.word.Streams :=
  (bytes 4).map Bytes.toUInt32

/-- A record is cut off before it is read. -/
theorem record (size : Nat) (reader : Reader α) : Streams (Reader.record size reader) :=
  (bytes size).bind fun taken => (lift (reader.onBytes taken)).bind fun pair => pure pair.1

theorem replicate {reader : Reader α} (streams : reader.Streams) (count : Nat) :
    Streams (reader.replicate count) := by
  induction count with
  | zero => exact pure []
  | succ count ih => exact streams.bind fun first => ih.bind fun others => pure (first :: others)

theorem item : Reader.item.Streams :=
  (record 8 _).bind fun pair => (bytes pair.2.toNat).bind fun content =>
    (lift (Payload.decode ⟨pair.1⟩ content)).bind fun payload => pure (Item.mk ⟨pair.1⟩ payload)

theorem node : Reader.node.Streams :=
  (record 44 _).bind fun pair => (item.replicate pair.2.toNat).bind fun items =>
    pure (Node.mk pair.1 items)

theorem scene : Reader.scene.Streams :=
  word.bind fun marker => word.bind fun count =>
    (node.replicate count.toNat).bind fun nodes => pure (Scene.mk marker nodes)

end Streams

end Reader

namespace Scene

variable {buffer : Bytes} {scene : Scene}

/-- Decoding begins with reading, and a failure to read is its failure. -/
theorem decode_of_error {error : FormatError} (failed : Reader.scene.onBytes buffer = .error error) :
    decode buffer = .error error := by
  rw [decode, failed]
  rfl

/-- A buffer from which something is missing is truncated. -/
theorem decode_of_missing {short missing : Bytes} (decoded : decode (short ++ missing) = .ok scene)
    (some : missing ≠ []) :
    ∃ needed available, available < needed ∧ decode short = .error (.truncated needed available) := by
  obtain ⟨raw, whole, fits, spells⟩ := decode_eq_ok_iff.mp decoded
  have read := Reader.scene_takes.onBytes ⟨raw, whole, fits, spells⟩
  rcases Reader.Streams.scene _ _ _ _ _ read with ⟨rest, nothing, -⟩ | ⟨needed, available, less, failed⟩
  · cases some (List.append_eq_nil_iff.mp nothing.symm).2
  · exact ⟨needed, available, less, decode_of_error failed⟩

/-- Bytes behind a buffer are trailing bytes. -/
theorem decode_append {extra : Bytes} (decoded : decode buffer = .ok scene) (some : extra ≠ []) :
    decode (buffer ++ extra) = .error (.invalidRecord (.trailingBytes extra.length)) := by
  have read := Reader.scene_takes.onBytes_append (decode_eq_ok_iff.mp decoded) extra
  rw [decode, read]
  change (if extra.isEmpty then _ else _) = _
  rw [if_neg (by simpa using some)]
  rfl

/-- Of a buffer that is accepted, no proper beginning is: it is truncated. Nor is a buffer
with bytes behind it, which are reported with their number. So a buffer that is accepted and
begins with another one is this other one. -/
theorem decode_ends (decoded : decode buffer = .ok scene) :
    (∀ short, short <+: buffer → short ≠ buffer → ∃ needed available, available < needed ∧
      decode short = .error (.truncated needed available)) ∧
    (∀ extra, extra ≠ [] →
      decode (buffer ++ extra) = .error (.invalidRecord (.trailingBytes extra.length))) ∧
    ∀ other found, decode other = .ok found → buffer <+: other → buffer = other := by
  refine ⟨?_, fun extra => decode_append decoded, ?_⟩
  · rintro short ⟨missing, rfl⟩ proper
    refine decode_of_missing decoded fun nothing => proper ?_
    rw [nothing, List.append_nil]
  · rintro _ found accepted ⟨extra, rfl⟩
    by_contra longer
    have some : extra ≠ [] := fun nothing => longer (by rw [nothing, List.append_nil])
    cases (decode_append decoded some).symm.trans accepted

/-- A buffer with a node that has an item of unknown type: without its last byte, and with
two more. -/
theorem decode_ends_unknown :
    let scene : Scene := ⟨standardMarker, [⟨.identity, [⟨⟨7⟩, .unknown [1, 2, 3]⟩]⟩]⟩
    decode scene.encode = .ok scene ∧
      (∃ needed available, available < needed ∧
        decode scene.encode.dropLast = .error (.truncated needed available)) ∧
      decode (scene.encode ++ [0, 0]) = .error (.invalidRecord (.trailingBytes 2)) := by
  intro scene
  have decoded : decode scene.encode = .ok scene := by decide +kernel
  obtain ⟨cut, extended, -⟩ := decode_ends decoded
  exact ⟨decoded, cut _ (List.dropLast_prefix _) (by decide +kernel), extended [0, 0] (by decide)⟩

end Scene

end SceneForge
