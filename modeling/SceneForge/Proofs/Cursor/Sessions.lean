import SceneForge.Proofs.Cursor.Indexing
import SceneForge.Scene.Decoding

/-!
# Sessions with a cursor

In a session, records and bytes are asked for in any order and in any number, and whoever asks
goes on after a failure, too. The main statement is about reading by indices: the index stays
within the byte string, so that no difference, sum or part of the byte string is ever out of
range; what comes of each operation is said outright; and it is what the readers of the library
make of it. Records that are asked for in a number have at least one byte each, since bytes
cannot be cut into pieces without bytes.
-/

namespace SceneForge

variable {α : Type}

/-! ## The readers of the library -/

namespace Reader

variable {cursor after : Cursor}

theorem records_of_bytes {size count : Nat} (small : count * size < 2 ^ 64) {taken : Bytes}
    (read : bytes (count * size) cursor = .ok (taken, after)) :
    records size count cursor = .ok (Bytes.chunks size taken, after) := by
  rw [records, if_neg (Nat.not_le.mpr small)]
  exact bind_of_ok read _

theorem records_of_failure {size count : Nat} (small : count * size < 2 ^ 64) {error : FormatError}
    (failed : bytes (count * size) cursor = .error error) :
    records size count cursor = .error error := by
  rw [records, if_neg (Nat.not_le.mpr small)]
  exact bind_of_error failed _

theorem records_of_overflow {size count : Nat} (overflow : 2 ^ 64 ≤ count * size) :
    records size count cursor = .error (.tooLarge (2 ^ 64 - 1)) := by
  rw [records, if_pos overflow]
  rfl

end Reader

/-- A record is what its bytes stand for. -/
theorem RecordLayout.record_of_bytes (layout : RecordLayout α) {cursor after : Cursor} {taken : Bytes}
    (read : Reader.bytes layout.size cursor = .ok (taken, after))
    (length : taken.length = layout.size) :
    Reader.record layout.size layout.reader cursor = .ok (layout.decode taken, after) := by
  rw [Reader.record, Reader.bind_of_ok read, layout.onBytes length]
  rfl

namespace IndexedCursor

variable {cursor : IndexedCursor} {count : Nat}

/-- The readers of the library take the same bytes. -/
theorem reader_bytes_of_within (within : cursor.offset + count ≤ cursor.data.length) :
    Reader.bytes count cursor.suffix = .ok (cursor.next count, (cursor.skip count).suffix) := by
  refine (Reader.Takes.bytes count _ _ _).mpr
    ⟨cursor.next count, ⟨rfl, length_next within⟩, ?_, ?_⟩
  · rw [suffix, suffix, skip, next, ← List.drop_drop, List.take_append_drop]
  · rw [length_next within, suffix, suffix, skip]

theorem reader_bytes_of_beyond (inside : cursor.offset ≤ cursor.data.length)
    (beyond : cursor.data.length < cursor.offset + count) :
    Reader.bytes count cursor.suffix =
      .error (.truncated count (cursor.data.length - cursor.offset)) := by
  have few : cursor.suffix.rest.length < count := by
    rw [suffix, List.length_drop]
    omega
  rw [Reader.bytes, splitAt?_eq_none_iff.mpr few, Cursor.remaining, suffix, List.length_drop]

end IndexedCursor

/-- The capacity is the largest number that was asked for and for which bytes are left. -/
theorem Cursor.le_capacity_iff {cursor : Cursor} {size count number : Nat} :
    number ≤ cursor.capacity size count ↔
      number ≤ count ∧ number * max size 1 ≤ cursor.remaining := by
  rw [capacity, Nat.le_min, Nat.le_div_iff_mul_le (by omega)]

/-! ## Operations -/

/-- What can be asked of a cursor: a record, a number of records in one piece, where a record has
at least one byte, or a number of bytes. -/
inductive Operation : Type 1 where
  | record {α : Type} (layout : RecordLayout α)
  | records {α : Type} (layout : RecordLayout α) (solid : 0 < layout.size) (count : Nat)
  | bytes (count : Nat)

namespace Operation

/-- How many bytes are asked for. -/
def size : Operation → Nat
  | record layout => layout.size
  | records layout _ count => count * layout.size
  | bytes count => count

/-- Whether the number of bytes is a product that does not fit a size. -/
def Overflows : Operation → Prop
  | records layout _ count => 2 ^ 64 ≤ count * layout.size
  | _ => False

/-- What is answered. -/
def Answer : Operation → Type
  | record (α := α) _ => α
  | records (α := α) _ _ _ => List α
  | bytes _ => Bytes

/-- What the bytes that are asked for stand for. -/
def answer : (operation : Operation) → (taken : Bytes) → operation.Answer
  | record layout, taken => layout.decode taken
  | records layout _ count, taken => layout.decodeMany count taken
  | bytes _, taken => taken

/-- An operation by the readers of the library. -/
def reader : (operation : Operation) → Reader operation.Answer
  | record layout => Reader.record layout.size layout.reader
  | records layout _ count => return (← Reader.records layout.size count).map layout.decode
  | bytes count => Reader.bytes count

/-- An operation by indices. -/
def indexed : (operation : Operation) → IndexedReader operation.Answer
  | record layout => IndexedReader.record layout
  | records layout _ count => IndexedReader.records layout count
  | bytes count => IndexedReader.bytes count

/-- How an operation by indices ends: with an answer, or as a failure with the index in its
place. The conditions exclude each other, and there is no ending where the machine stops the
program. -/
inductive Ends (cursor : IndexedCursor) (operation : Operation) :
    EStateM.Result Halt IndexedCursor operation.Answer → Prop where
  /-- The next bytes are answered, and the index moves behind them. -/
  | taken (expressible : ¬operation.Overflows)
      (within : cursor.offset + operation.size ≤ cursor.data.length) :
      Ends cursor operation
        (.ok (operation.answer (cursor.next operation.size)) (cursor.skip operation.size))
  | truncated (expressible : ¬operation.Overflows)
      (beyond : cursor.data.length < cursor.offset + operation.size) :
      Ends cursor operation
        (.error (.failure (.truncated operation.size (cursor.data.length - cursor.offset))) cursor)
  | tooLarge (overflows : operation.Overflows) :
      Ends cursor operation (.error (.failure (.tooLarge (2 ^ 64 - 1))) cursor)

variable {operation : Operation} {cursor : IndexedCursor}

theorem indexed_of_within (fits : cursor.data.length < 2 ^ 64)
    (within : cursor.offset + operation.size ≤ cursor.data.length) :
    operation.indexed cursor =
      .ok (operation.answer (cursor.next operation.size)) (cursor.skip operation.size) := by
  cases operation with
  | record layout => exact IndexedReader.record_of_within fits within
  | records layout solid count => exact IndexedReader.records_of_within fits solid within
  | bytes count => exact IndexedReader.bytes_of_within fits within

theorem indexed_of_beyond (expressible : ¬operation.Overflows)
    (inside : cursor.offset ≤ cursor.data.length)
    (beyond : cursor.data.length < cursor.offset + operation.size) :
    operation.indexed cursor =
      .error (.failure (.truncated operation.size (cursor.data.length - cursor.offset))) cursor := by
  have stopped := IndexedReader.bytes_of_beyond inside beyond
  cases operation with
  | record layout => exact IndexedReader.bind_of_error stopped _
  | records =>
      exact IndexedReader.records_of_failure (Nat.not_le.mp expressible) stopped
  | bytes count => exact stopped

theorem indexed_of_overflows (overflows : operation.Overflows) :
    operation.indexed cursor = .error (.failure (.tooLarge (2 ^ 64 - 1))) cursor := by
  cases operation with
  | records => exact IndexedReader.records_of_overflow overflows
  | record | bytes => exact overflows.elim

/-- While the index is inside, every operation ends in one of the ways that are said. -/
theorem ends (operation : Operation) (fits : cursor.data.length < 2 ^ 64)
    (inside : cursor.offset ≤ cursor.data.length) :
    operation.Ends cursor (operation.indexed cursor) := by
  by_cases overflows : operation.Overflows
  · rw [indexed_of_overflows overflows]
    exact .tooLarge overflows
  rcases Nat.lt_or_ge cursor.data.length (cursor.offset + operation.size) with beyond | within
  · rw [indexed_of_beyond overflows inside beyond]
    exact .truncated overflows beyond
  · rw [indexed_of_within fits within]
    exact .taken overflows within

theorem reader_of_within (expressible : ¬operation.Overflows)
    (within : cursor.offset + operation.size ≤ cursor.data.length) :
    operation.reader cursor.suffix =
      .ok (operation.answer (cursor.next operation.size), (cursor.skip operation.size).suffix) := by
  have taken := IndexedCursor.reader_bytes_of_within within
  have length := IndexedCursor.length_next within
  cases operation with
  | record layout => exact layout.record_of_bytes taken length
  | records layout solid count =>
      rw [answer, ← RecordLayout.map_decode_chunks solid length]
      exact Reader.bind_of_ok (Reader.records_of_bytes (Nat.not_le.mp expressible) taken) _
  | bytes count => exact taken

theorem reader_of_beyond (expressible : ¬operation.Overflows)
    (inside : cursor.offset ≤ cursor.data.length)
    (beyond : cursor.data.length < cursor.offset + operation.size) :
    operation.reader cursor.suffix =
      .error (.truncated operation.size (cursor.data.length - cursor.offset)) := by
  have failed := IndexedCursor.reader_bytes_of_beyond inside beyond
  cases operation with
  | record layout => exact Reader.bind_of_error failed _
  | records =>
      exact Reader.bind_of_error (Reader.records_of_failure (Nat.not_le.mp expressible) failed) _
  | bytes count => exact failed

theorem reader_of_overflows (overflows : operation.Overflows) :
    operation.reader cursor.suffix = .error (.tooLarge (2 ^ 64 - 1)) := by
  cases operation with
  | records => exact Reader.bind_of_error (Reader.records_of_overflow overflows) _
  | record | bytes => exact overflows.elim

/-- The readers of the library read what is read by indices. -/
theorem indexed_eq_ofReader (fits : cursor.data.length < 2 ^ 64)
    (inside : cursor.offset ≤ cursor.data.length) :
    operation.indexed cursor = IndexedReader.ofReader operation.reader cursor := by
  have ended := operation.ends fits inside
  generalize operation.indexed cursor = result at ended ⊢
  cases ended with
  | taken expressible within =>
      rw [IndexedReader.ofReader, reader_of_within expressible within]
      rfl
  | truncated expressible beyond =>
      rw [IndexedReader.ofReader, reader_of_beyond expressible inside beyond]
  | tooLarge overflows => rw [IndexedReader.ofReader, reader_of_overflows overflows]

end Operation

/-! ## Sessions -/

/-- The cursor after an operation: where it fails, the cursor from before. -/
def Cursor.perform (cursor : Cursor) (operation : Operation) : Cursor :=
  match operation.reader cursor with
  | .ok (_, after) => after
  | .error _ => cursor

/-- The cursor after a session. -/
def Cursor.after (cursor : Cursor) (session : List Operation) : Cursor :=
  session.foldl Cursor.perform cursor

namespace IndexedCursor

/-- The cursor that an operation leaves behind, with or without an answer. -/
def perform (cursor : IndexedCursor) (operation : Operation) : IndexedCursor :=
  match operation.indexed cursor with
  | .ok _ after | .error _ after => after

/-- The cursor after a session, which goes on after failures. -/
def after (cursor : IndexedCursor) (session : List Operation) : IndexedCursor :=
  session.foldl perform cursor

variable {cursor : IndexedCursor}

/-- An operation leaves the byte string as it is and the index inside, whichever way it ends. -/
theorem perform_inside (operation : Operation) (fits : cursor.data.length < 2 ^ 64)
    (inside : cursor.offset ≤ cursor.data.length) :
    (cursor.perform operation).data = cursor.data ∧
      (cursor.perform operation).offset ≤ cursor.data.length := by
  have ended := operation.ends fits inside
  rw [perform]
  -- Nothing else is used of the outcome than how it ends.
  generalize operation.indexed cursor = result at ended ⊢
  cases ended with
  | taken _ within => exact ⟨rfl, within⟩
  | truncated | tooLarge => exact ⟨rfl, inside⟩

/-- The readers of the library move in the same way. -/
theorem perform_suffix (operation : Operation) (fits : cursor.data.length < 2 ^ 64)
    (inside : cursor.offset ≤ cursor.data.length) :
    cursor.suffix.perform operation = (cursor.perform operation).suffix := by
  have ended := operation.ends fits inside
  rw [perform, Cursor.perform]
  generalize operation.indexed cursor = result at ended ⊢
  cases ended with
  | taken expressible within => rw [Operation.reader_of_within expressible within]
  | truncated expressible beyond => rw [Operation.reader_of_beyond expressible inside beyond]
  | tooLarge overflows => rw [Operation.reader_of_overflows overflows]

/-- A session leaves the byte string as it is and the index inside, since each of its
operations does; and the readers of the library end in the same place. -/
theorem after_inside (cursor : IndexedCursor) (session : List Operation)
    (fits : cursor.data.length < 2 ^ 64) (inside : cursor.offset ≤ cursor.data.length) :
    (cursor.after session).data = cursor.data ∧
      (cursor.after session).offset ≤ cursor.data.length ∧
      cursor.suffix.after session = (cursor.after session).suffix := by
  induction session generalizing cursor with
  | nil => exact ⟨rfl, inside, rfl⟩
  | cons operation session ih =>
      obtain ⟨same, within⟩ := perform_inside operation fits inside
      have moved := perform_suffix operation fits inside
      have rest := ih (cursor.perform operation) (by rwa [same]) (by rwa [same])
      rw [same, ← moved] at rest
      exact rest

/-- Any session with a cursor on a byte string that a machine can hold leaves the index within
the byte string, and the readers of the library in the same place. Whatever is asked for next
`Ends` as it is said: the next bytes are answered and the index moves behind them; or the
operation fails with the numbers of bytes that are needed and that are left, or because the
needed number overflows, and the index stays. It never fails a check of a difference, of a sum,
of the part of the byte string or of a record's size, and the readers of the library carry it
out in the same way. The capacity for records is the largest number that was asked for and for
which bytes are left, where a record without bytes counts as one byte. -/
theorem session_guarded (data : Bytes) (fits : data.length < 2 ^ 64)
    (session : List Operation) :
    let cursor := (start data).after session
    cursor.data = data ∧ cursor.offset ≤ data.length ∧
      (Cursor.start data).after session = cursor.suffix ∧
      (∀ operation : Operation, operation.Ends cursor (operation.indexed cursor) ∧
        operation.indexed cursor = IndexedReader.ofReader operation.reader cursor) ∧
      IndexedReader.remaining cursor = .ok (data.length - cursor.offset) cursor ∧
      ∀ size count, IndexedReader.capacity size count cursor =
          .ok (cursor.suffix.capacity size count) cursor ∧
        ∀ number, number ≤ cursor.suffix.capacity size count ↔
          number ≤ count ∧ number * max size 1 ≤ data.length - cursor.offset := by
  intro cursor
  obtain ⟨same, inside, moved⟩ := after_inside (start data) session fits (Nat.zero_le _)
  change cursor.data = data at same
  change cursor.offset ≤ data.length at inside
  refine ⟨same, inside, moved, ?_⟩
  rw [← same] at fits inside ⊢
  refine ⟨fun operation => ⟨operation.ends fits inside, Operation.indexed_eq_ofReader fits inside⟩,
    IndexedReader.remaining_apply inside,
    fun size count => ⟨IndexedReader.capacity_apply inside size count, fun number => ?_⟩⟩
  rw [Cursor.le_capacity_iff, remaining_suffix]

/-- An item of unknown type: a header of two words before three bytes. When twelve bytes have
been asked for in vain and the header has been read, the three bytes are there, but no word and
no further header; and so many headers that their size overflows are refused as such. -/
theorem session_guarded_item :
    let data : Bytes := [7, 0, 0, 0, 3, 0, 0, 0, 1, 2, 3]
    let header := RecordLayout.word.both RecordLayout.word
    let session : List Operation := [.bytes 12, .record header]
    let cursor : IndexedCursor := ⟨data, 8⟩
    data.length < 2 ^ 64 ∧ (start data).after session = cursor ∧
      (Operation.bytes 3).Ends cursor (.ok [1, 2, 3] ⟨data, 11⟩) ∧
      (Operation.record .word).Ends cursor (.error (.failure (.truncated 4 3)) cursor) ∧
      (Operation.records header (by decide) (2 ^ 61)).Ends cursor
        (.error (.failure (.tooLarge (2 ^ 64 - 1))) cursor) ∧
      ¬1 ≤ cursor.suffix.capacity header.size 5 := by
  intro data header session cursor
  have few : data.length < 2 ^ 64 := by decide
  have reached : (start data).after session = cursor := rfl
  obtain ⟨-, -, -, ends, -, capacity⟩ := session_guarded data few session
  -- With the place that has been reached, the operations can be evaluated.
  rw [reached] at ends capacity
  refine ⟨few, reached, (ends _).1, (ends _).1, (ends _).1, fun room => ?_⟩
  have fitting := ((capacity header.size 5).2 1).mp room
  revert fitting
  decide

/-- Records without bytes are outside of what can be asked for: also none of them, of no bytes,
stop the program. There is neither an answer nor a failure. -/
theorem session_unguarded :
    let cursor := start []
    IndexedReader.records (.raw 0) 0 cursor = .error (.fault .emptyPieces) cursor ∧
      (∀ answer after, IndexedReader.records (.raw 0) 0 cursor ≠ .ok answer after) ∧
      ∀ error after, IndexedReader.records (.raw 0) 0 cursor ≠ .error (.failure error) after := by
  intro cursor
  have stopped : IndexedReader.records (.raw 0) 0 cursor = .error (.fault .emptyPieces) cursor :=
    IndexedReader.records_of_hollow (by decide) (Nat.le_refl 0) rfl
  refine ⟨stopped, fun answer after => ?_, fun error after => ?_⟩ <;> simp [stopped]

end IndexedCursor

end SceneForge
