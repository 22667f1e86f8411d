import SceneForge.Cursor

/-!
# Reading by indices

A cursor holds the bytes that are left. A machine keeps the whole byte string instead, with
the index of the next byte, and takes bytes by computing with sizes: a difference must not be
below zero, a sum has to fit 64 bits, a part of a byte string has to lie in it, and the pieces
it is cut into must have bytes; otherwise the machine stops the program. Here bytes are read
with all of these checks.
-/

namespace SceneForge

variable {α : Type}

/-- A cursor as a machine keeps it: the whole byte string, and the index of the next byte.
Nothing keeps the index within the byte string. -/
structure IndexedCursor where
  data : Bytes
  offset : Nat
  deriving DecidableEq

/-- What makes a machine stop a program. -/
inductive MachineFault where
  /-- A difference is below zero. -/
  | negative
  /-- A sum does not fit a size. -/
  | overflow
  /-- A part of a byte string ends before it begins, or behind the byte string. -/
  | outOfRange
  /-- A byte string is to be cut into pieces without bytes. -/
  | emptyPieces
  /-- A record is to be made of too few bytes, or of too many. -/
  | wrongSize
  deriving DecidableEq

/-- Why an operation has no answer: it fails, or the program is stopped. -/
inductive Halt where
  | failure (error : FormatError)
  | fault (fault : MachineFault)
  deriving DecidableEq

/-- A reader by indices. It leaves a cursor behind even where it has no answer. -/
abbrev IndexedReader (α : Type) := EStateM Halt IndexedCursor α

/-- The layout of a record: how many bytes it has, how they are read, and what they stand
for. Every byte string of this size stands for something. -/
structure RecordLayout (α : Type) where
  size : Nat
  reader : Reader α
  decode : Bytes → α
  reads (offset : Nat) (bytes rest : Bytes) : bytes.length = size →
    reader ⟨offset, bytes ++ rest⟩ = .ok (decode bytes, ⟨offset + size, rest⟩)

namespace RecordLayout

/-- A record that is kept as its bytes. -/
def raw (size : Nat) : RecordLayout Bytes where
  size := size
  reader := Reader.bytes size
  decode bytes := bytes
  reads offset bytes rest length := by
    subst length
    rw [Reader.bytes, splitAt?_append]

end RecordLayout

namespace IndexedCursor

/-- The start of a byte string. -/
def start (data : Bytes) : IndexedCursor := ⟨data, 0⟩

end IndexedCursor

namespace IndexedReader

/-- The difference of two sizes. -/
def difference (whole part : Nat) : IndexedReader Nat :=
  if whole < part then throw (.fault .negative) else return whole - part

/-- The sum of two sizes. -/
def sum (first second : Nat) : IndexedReader Nat :=
  if 2 ^ 64 ≤ first + second then throw (.fault .overflow) else return first + second

/-- The bytes from one index to another. -/
def slice (start stop : Nat) : IndexedReader Bytes := do
  let cursor ← get
  if stop < start ∨ cursor.data.length < stop then throw (.fault .outOfRange)
  else return (cursor.data.drop start).take (stop - start)

/-- How many bytes are left. -/
def remaining : IndexedReader Nat := do
  let cursor ← get
  difference cursor.data.length cursor.offset

/-- How many of `count` records of `size` bytes can still follow. -/
def capacity (size count : Nat) : IndexedReader Nat :=
  return min count ((← remaining) / max size 1)

/-- Takes the next `count` bytes. -/
def bytes (count : Nat) : IndexedReader Bytes := do
  let available ← remaining
  if available < count then throw (.failure (.truncated count available))
  else
    let cursor ← get
    let taken ← slice cursor.offset (← sum cursor.offset count)
    set { cursor with offset := ← sum cursor.offset count }
    return taken

/-- What the bytes of a record stand for. -/
def value (layout : RecordLayout α) (bytes : Bytes) : IndexedReader α :=
  if bytes.length = layout.size then return layout.decode bytes else throw (.fault .wrongSize)

/-- Cuts a byte string into pieces. -/
def pieces (size : Nat) (bytes : Bytes) : IndexedReader (List Bytes) :=
  if size = 0 then throw (.fault .emptyPieces) else return Bytes.chunks size bytes

/-- Takes a record. -/
def record (layout : RecordLayout α) : IndexedReader α := do value layout (← bytes layout.size)

/-- Takes `count` records in one piece. -/
def records (layout : RecordLayout α) (count : Nat) : IndexedReader (List α) :=
  if 2 ^ 64 ≤ count * layout.size then throw (.failure (.tooLarge (2 ^ 64 - 1)))
  else do (← pieces layout.size (← bytes (count * layout.size))).mapM (value layout)

end IndexedReader

end SceneForge
