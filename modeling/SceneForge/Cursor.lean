import SceneForge.FormatError

/-!
# Reading records from bytes

A cursor is a place in a byte string. Reading takes the next bytes or reports how
many were wanted and how many are left; a failed reading leaves the cursor where it
was. Readers of larger things are made from readers of smaller ones.
-/

namespace SceneForge

/-- The first `count` elements and the rest, if there are that many. -/
def splitAt? {α : Type} : (count : Nat) → (list : List α) → Option (List α × List α)
  | 0, list => some ([], list)
  | _ + 1, [] => none
  | count + 1, first :: rest =>
      (splitAt? count rest).map fun (taken, remaining) => (first :: taken, remaining)

theorem splitAt?_append {α : Type} (taken rest : List α) :
    splitAt? taken.length (taken ++ rest) = some (taken, rest) := by
  induction taken with
  | nil => rfl
  | cons first taken ih => simp [splitAt?, ih]

theorem splitAt?_eq_some_iff {α : Type} {count : Nat} {list taken rest : List α} :
    splitAt? count list = some (taken, rest) ↔ list = taken ++ rest ∧ taken.length = count := by
  constructor
  · intro h
    induction count generalizing list taken with
    | zero => simp [splitAt?] at h; simp [← h.1, h.2]
    | succ count ih =>
        cases list with
        | nil => simp [splitAt?] at h
        | cons first list =>
            simp only [splitAt?, Option.map_eq_some_iff, Prod.mk.injEq, Prod.exists] at h
            obtain ⟨inner, remaining, hinner, rfl, rfl⟩ := h
            obtain ⟨rfl, rfl⟩ := ih hinner
            simp
  · rintro ⟨rfl, rfl⟩
    exact splitAt?_append taken rest

theorem splitAt?_eq_none_iff {α : Type} {count : Nat} {list : List α} :
    splitAt? count list = none ↔ list.length < count := by
  induction count generalizing list with
  | zero => simp [splitAt?]
  | succ count ih => cases list <;> simp [splitAt?, ih]

/-- A place in a byte string: how many bytes lie before it, and those after it. -/
structure Cursor where
  offset : Nat
  rest : Bytes

/-- A reader of `α`. -/
abbrev Reader (α : Type) := StateT Cursor (Except FormatError) α

namespace Cursor

/-- The start of a byte string. -/
def start (bytes : Bytes) : Cursor := ⟨0, bytes⟩

/-- How many bytes are left. -/
def remaining (cursor : Cursor) : Nat := cursor.rest.length

/-- How many of `count` records of `size` bytes can still follow; a record without
bytes counts as one byte. -/
def capacity (cursor : Cursor) (size count : Nat) : Nat :=
  min count (cursor.remaining / max size 1)

end Cursor

namespace Reader

/-- Takes the next `count` bytes. -/
def bytes (count : Nat) : Reader Bytes := fun cursor =>
  match splitAt? count cursor.rest with
  | some (taken, rest) => .ok (taken, ⟨cursor.offset + count, rest⟩)
  | none => .error (.truncated count cursor.remaining)

/-- A byte. -/
def byte : Reader UInt8 := return UInt8.ofNat (Bytes.toNat (← bytes 1))

/-- A 16-bit word. -/
def halfWord : Reader UInt16 := return UInt16.ofNat (Bytes.toNat (← bytes 2))

/-- A 32-bit word. -/
def word : Reader UInt32 := return Bytes.toUInt32 (← bytes 4)

/-- A 64-bit word. -/
def longWord : Reader UInt64 := return UInt64.ofNat (Bytes.toNat (← bytes 8))

/-- Takes `count` records of `size` bytes in one piece. -/
def records (size count : Nat) : Reader (List Bytes) :=
  if 2 ^ 64 ≤ count * size then throw (.tooLarge (2 ^ 64 - 1))
  else return Bytes.chunks size (← bytes (count * size))

/-- Reads `count` times. -/
def replicate {α : Type} (reader : Reader α) : (count : Nat) → Reader (List α)
  | 0 => return []
  | count + 1 => do
      let first ← reader
      let others ← replicate reader count
      return first :: others

/-- Lets a reader read a whole byte string; gives the cursor behind what was read. -/
def onBytes {α : Type} (reader : Reader α) (bytes : Bytes) : Except FormatError (α × Cursor) :=
  reader (.start bytes)

end Reader

end SceneForge
