import SceneForge.Power

/-!
# Byte strings and little-endian words

Every record of a compiled scene, of its container and of the build database is a
run of little-endian words. This module holds the one codec they share, on
numbers of any width, and its laws: the width of what is written, and that
reading and writing undo each other.
-/

namespace SceneForge

/-- A finite byte string. -/
abbrev Bytes := List UInt8

namespace Bytes

/-- The `width` low bytes of `value`, least significant first. -/
def ofNat : (width : Nat) → (value : Nat) → Bytes
  | 0, _ => []
  | width + 1, value => UInt8.ofNat value :: ofNat width (value / 256)

/-- The number whose base-256 digits, least significant first, are `bytes`. -/
def toNat : (bytes : Bytes) → Nat
  | [] => 0
  | byte :: rest => byte.toNat + 256 * toNat rest

@[simp] theorem length_ofNat (width value : Nat) : (ofNat width value).length = width := by
  induction width generalizing value with
  | zero => rfl
  | succ width ih => simp [ofNat, ih]

theorem toNat_lt (bytes : Bytes) : toNat bytes < 256 ^ bytes.length := by
  induction bytes with
  | nil => simp [toNat]
  | cons byte rest ih =>
      have hbyte := byte.toNat_lt
      simp only [toNat, List.length_cons, Nat.pow_succ]
      omega

/-- Reading what was written loses only what did not fit the width. -/
theorem toNat_ofNat (width value : Nat) : toNat (ofNat width value) = value % 256 ^ width := by
  induction width generalizing value with
  | zero => simp [ofNat, toNat, Nat.mod_one]
  | succ width ih =>
      rw [ofNat, toNat, ih, Nat.pow_succ, Nat.mul_comm (256 ^ width), Nat.mod_mul]
      simp

/-- Writing what was read, at its own width, gives the bytes back. -/
theorem ofNat_toNat (bytes : Bytes) : ofNat bytes.length (toNat bytes) = bytes := by
  induction bytes with
  | nil => rfl
  | cons byte rest ih =>
      have hbyte := byte.toNat_lt
      simp only [toNat, List.length_cons, ofNat]
      have hdiv : (byte.toNat + 256 * toNat rest) / 256 = toNat rest := by omega
      rw [hdiv, ih]
      congr 1
      apply UInt8.toNat_inj.mp
      simp only [UInt8.toNat_ofNat']
      omega

/-- The four bytes of a 32-bit word. -/
def ofUInt32 (word : UInt32) : Bytes := ofNat 4 word.toNat

/-- The 32-bit word that four bytes spell. -/
def toUInt32 (bytes : Bytes) : UInt32 := UInt32.ofNat (toNat bytes)

/-- The eight bytes of a 64-bit word. -/
def ofUInt64 (word : UInt64) : Bytes := ofNat 8 word.toNat

@[simp] theorem length_ofUInt32 (word : UInt32) : (ofUInt32 word).length = 4 := length_ofNat _ _

@[simp] theorem length_ofUInt64 (word : UInt64) : (ofUInt64 word).length = 8 := length_ofNat _ _

@[simp] theorem toUInt32_ofUInt32 (word : UInt32) : toUInt32 (ofUInt32 word) = word := by
  have hword := word.toNat_lt
  rw [toUInt32, ofUInt32, toNat_ofNat, Nat.mod_eq_of_lt (by omega), UInt32.ofNat_toNat]

theorem ofUInt32_toUInt32 {bytes : Bytes} (h : bytes.length = 4) :
    ofUInt32 (toUInt32 bytes) = bytes := by
  have hlt := toNat_lt bytes
  rw [h] at hlt
  rw [ofUInt32, toUInt32, UInt32.toNat_ofNat_of_lt' (by simpa using hlt), ← h, ofNat_toNat]

/-- Splits a byte string into pieces of `size` bytes; bytes too few for a piece are
dropped. -/
def chunks (size : Nat) (bytes : Bytes) : List Bytes :=
  let piece := bytes.take size
  if size = 0 ∨ piece.length < size then [] else piece :: chunks size (bytes.drop size)
termination_by bytes.length
decreasing_by simp only [piece, List.length_take, List.length_drop] at *; omega

end Bytes

end SceneForge
