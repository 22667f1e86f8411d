import SceneForge.Cursor.Indexed
import SceneForge.Proofs.Reading

/-!
# Readers by indices

What each reader by indices does as long as the index lies within the byte string: the checks
succeed, and bytes are taken as far as there are any.
-/

namespace SceneForge

namespace Bytes

/-- Cutting a byte string gives its parts at the multiples of the size. -/
theorem chunks_eq_map_range {size count : Nat} (positive : 0 < size) {bytes : Bytes}
    (length : bytes.length = count * size) :
    chunks size bytes =
      (List.range count).map fun index => (bytes.drop (index * size)).take size := by
  induction count generalizing bytes with
  | zero =>
      obtain rfl := List.eq_nil_of_length_eq_zero (length.trans (Nat.zero_mul size))
      rw [chunks]
      simp [positive]
  | succ count ih =>
      rw [Nat.succ_mul] at length
      have front : ¬(size = 0 ∨ (bytes.take size).length < size) := by
        rw [List.length_take]
        omega
      have back : (bytes.drop size).length = count * size := by
        rw [List.length_drop]
        omega
      rw [chunks, if_neg front, ih back, List.range_succ_eq_map, List.map_cons, List.map_map]
      simp [Function.comp_def, Nat.succ_mul, Nat.add_comm]

end Bytes

variable {α β : Type}

namespace RecordLayout

/-- A word. -/
def word : RecordLayout UInt32 where
  size := 4
  reader := Reader.word
  decode := Bytes.toUInt32
  reads offset bytes rest length := by
    have read := Reader.Takes.word.apply (Bytes.ofUInt32_toUInt32 length).symm offset rest
    rwa [length] at read

/-- One record behind another. -/
def both (first : RecordLayout α) (second : RecordLayout β) : RecordLayout (α × β) where
  size := first.size + second.size
  reader := return (← first.reader, ← second.reader)
  decode bytes := (first.decode (bytes.take first.size), second.decode (bytes.drop first.size))
  reads offset bytes rest length := by
    have front : (bytes.take first.size).length = first.size := by
      rw [List.length_take]
      omega
    have back : (bytes.drop first.size).length = second.size := by
      rw [List.length_drop]
      omega
    have split : bytes ++ rest =
        bytes.take first.size ++ (bytes.drop first.size ++ rest) := by
      rw [← List.append_assoc, List.take_append_drop]
    rw [split, Reader.bind_of_ok (first.reads _ _ _ front),
      Reader.bind_of_ok (second.reads _ _ _ back), Nat.add_assoc]
    rfl

/-- What records behind each other stand for. -/
def decodeMany (layout : RecordLayout α) (count : Nat) (bytes : Bytes) : List α :=
  (List.range count).map fun index =>
    layout.decode ((bytes.drop (index * layout.size)).take layout.size)

/-- Records behind each other are cut apart. -/
theorem map_decode_chunks {layout : RecordLayout α} (solid : 0 < layout.size) {count : Nat}
    {bytes : Bytes} (length : bytes.length = count * layout.size) :
    (Bytes.chunks layout.size bytes).map layout.decode = layout.decodeMany count bytes := by
  rw [decodeMany, Bytes.chunks_eq_map_range solid length, List.map_map]
  rfl

/-- A record is read as a whole. -/
theorem onBytes (layout : RecordLayout α) {bytes : Bytes} (length : bytes.length = layout.size) :
    layout.reader.onBytes bytes = .ok (layout.decode bytes, ⟨layout.size, []⟩) := by
  have read := layout.reads 0 bytes [] length
  rwa [List.append_nil, Nat.zero_add] at read

end RecordLayout

namespace IndexedCursor

/-- The cursor with the bytes that are left. -/
def suffix (cursor : IndexedCursor) : Cursor := ⟨cursor.offset, cursor.data.drop cursor.offset⟩

/-- The next bytes. -/
def next (cursor : IndexedCursor) (count : Nat) : Bytes :=
  (cursor.data.drop cursor.offset).take count

/-- The cursor behind the next bytes. -/
def skip (cursor : IndexedCursor) (count : Nat) : IndexedCursor :=
  { cursor with offset := cursor.offset + count }

theorem length_next {cursor : IndexedCursor} {count : Nat}
    (within : cursor.offset + count ≤ cursor.data.length) : (cursor.next count).length = count := by
  rw [next, List.length_take, List.length_drop]
  omega

theorem remaining_suffix (cursor : IndexedCursor) :
    cursor.suffix.remaining = cursor.data.length - cursor.offset := by
  rw [Cursor.remaining, suffix, List.length_drop]

end IndexedCursor

namespace IndexedReader

/-- Reads by indices what a reader reads of the bytes that are left. Where the reader fails,
the index stays where it is. -/
def ofReader (reader : Reader α) : IndexedReader α := fun cursor =>
  match reader cursor.suffix with
  | .ok (value, after) => .ok value { cursor with offset := after.offset }
  | .error error => .error (.failure error) cursor

variable {cursor after : IndexedCursor}

/-- One reader after another: the second begins where the first ends. -/
theorem bind_of_ok {first : IndexedReader α} {value : α} (ran : first cursor = .ok value after)
    (next : α → IndexedReader β) : (first >>= next) cursor = next value after := by
  change EStateM.bind first next cursor = _
  rw [EStateM.bind, ran]

/-- Where the first reader stops, both do. -/
theorem bind_of_error {first : IndexedReader α} {halt : Halt} (ran : first cursor = .error halt after)
    (next : α → IndexedReader β) : (first >>= next) cursor = .error halt after := by
  change EStateM.bind first next cursor = _
  rw [EStateM.bind, ran]

/-- The subtraction is in range as long as the index is. -/
theorem remaining_apply (inside : cursor.offset ≤ cursor.data.length) :
    remaining cursor = .ok (cursor.data.length - cursor.offset) cursor := by
  change difference cursor.data.length cursor.offset cursor = _
  rw [difference, if_neg (Nat.not_lt.mpr inside)]
  rfl

theorem capacity_apply (inside : cursor.offset ≤ cursor.data.length) (size count : Nat) :
    capacity size count cursor = .ok (cursor.suffix.capacity size count) cursor := by
  rw [capacity, bind_of_ok (remaining_apply inside), Cursor.capacity,
    IndexedCursor.remaining_suffix]
  rfl

theorem sum_apply {first second : Nat} (fits : first + second < 2 ^ 64) :
    sum first second cursor = .ok (first + second) cursor := by
  rw [sum, if_neg (Nat.not_le.mpr fits)]
  rfl

theorem slice_apply {count : Nat} (within : cursor.offset + count ≤ cursor.data.length) :
    slice cursor.offset (cursor.offset + count) cursor = .ok (cursor.next count) cursor := by
  change (if _ then _ else _ : IndexedReader Bytes) cursor = _
  rw [if_neg (by omega), Nat.add_sub_cancel_left]
  rfl

/-- Bytes that are there are taken. -/
theorem bytes_of_within {count : Nat} (fits : cursor.data.length < 2 ^ 64)
    (within : cursor.offset + count ≤ cursor.data.length) :
    bytes count cursor = .ok (cursor.next count) (cursor.skip count) := by
  have added : sum cursor.offset count cursor = .ok (cursor.offset + count) cursor :=
    sum_apply (Nat.lt_of_le_of_lt within fits)
  rw [bytes, bind_of_ok (remaining_apply (Nat.le_of_add_right_le within)), if_neg (by omega)]
  -- The sum is computed twice: it ends the part that is taken, and it is the new index.
  change (sum cursor.offset count >>= _) cursor = _
  rw [bind_of_ok added, bind_of_ok (slice_apply within), bind_of_ok added]
  rfl

/-- Bytes that are not there are not taken, and the index stays where it is. -/
theorem bytes_of_beyond {count : Nat} (inside : cursor.offset ≤ cursor.data.length)
    (beyond : cursor.data.length < cursor.offset + count) :
    bytes count cursor =
      .error (.failure (.truncated count (cursor.data.length - cursor.offset))) cursor := by
  rw [bytes, bind_of_ok (remaining_apply inside), if_pos (by omega)]
  rfl

theorem value_apply {layout : RecordLayout α} {bytes : Bytes} (sized : bytes.length = layout.size)
    (cursor : IndexedCursor) : value layout bytes cursor = .ok (layout.decode bytes) cursor := by
  rw [value, if_pos sized]
  rfl

/-- Pieces of the right size are made into records one by one. -/
theorem mapM_value {layout : RecordLayout α} {pieces : List Bytes}
    (sized : ∀ piece ∈ pieces, piece.length = layout.size) :
    pieces.mapM (value layout) cursor = .ok (pieces.map layout.decode) cursor := by
  induction pieces with
  | nil => rfl
  | cons piece pieces ih =>
      have first := value_apply (sized piece (List.mem_cons_self ..)) cursor
      have others := ih fun other member => sized other (List.mem_cons_of_mem _ member)
      rw [List.mapM_cons, bind_of_ok first, bind_of_ok others]
      rfl

theorem record_of_within {layout : RecordLayout α} (fits : cursor.data.length < 2 ^ 64)
    (within : cursor.offset + layout.size ≤ cursor.data.length) :
    record layout cursor =
      .ok (layout.decode (cursor.next layout.size)) (cursor.skip layout.size) := by
  rw [record, bind_of_ok (bytes_of_within fits within)]
  exact value_apply (IndexedCursor.length_next within) _

theorem records_of_within {layout : RecordLayout α} {count : Nat} (fits : cursor.data.length < 2 ^ 64)
    (solid : 0 < layout.size) (within : cursor.offset + count * layout.size ≤ cursor.data.length) :
    records layout count cursor =
      .ok (layout.decodeMany count (cursor.next (count * layout.size)))
        (cursor.skip (count * layout.size)) := by
  have length := IndexedCursor.length_next within
  obtain ⟨-, -, sized⟩ := Bytes.chunks_of_length solid length
  rw [records, if_neg (by omega), bind_of_ok (bytes_of_within fits within), pieces,
    if_neg (Nat.ne_of_gt solid), ← RecordLayout.map_decode_chunks solid length]
  exact mapM_value sized

theorem records_of_failure {layout : RecordLayout α} {count : Nat} {halt : Halt}
    (small : count * layout.size < 2 ^ 64)
    (stopped : bytes (count * layout.size) cursor = .error halt after) :
    records layout count cursor = .error halt after := by
  rw [records, if_neg (Nat.not_le.mpr small)]
  exact bind_of_error stopped _

theorem records_of_overflow {layout : RecordLayout α} {count : Nat}
    (overflow : 2 ^ 64 ≤ count * layout.size) :
    records layout count cursor = .error (.failure (.tooLarge (2 ^ 64 - 1))) cursor := by
  rw [records, if_pos overflow]
  rfl

/-- Records without bytes are asked for in vain, whichever number of them. -/
theorem records_of_hollow {layout : RecordLayout α} {count : Nat} (fits : cursor.data.length < 2 ^ 64)
    (inside : cursor.offset ≤ cursor.data.length) (hollow : layout.size = 0) :
    records layout count cursor = .error (.fault .emptyPieces) cursor := by
  have within : cursor.offset + count * layout.size ≤ cursor.data.length := by
    rw [hollow]
    omega
  rw [records, if_neg (by omega), bind_of_ok (bytes_of_within fits within), pieces, if_pos hollow,
    hollow]
  rfl

end IndexedReader

end SceneForge
