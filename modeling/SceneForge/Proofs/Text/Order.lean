import SceneForge.Text.Utf8

/-!
# The order of texts

Maps keep their keys in the order of `compare`, which goes character by character. This is
the order of the bytes of texts as well: of two different characters, the lesser one has
the lesser byte where their bytes first differ.
-/

namespace SceneForge.Text

theorem compare_eq_lt_iff {left right : String} : compare left right = .lt ↔ left < right :=
  compareOfLessAndEq_eq_lt

theorem cons_lt_cons_of_le {m n : Nat} {rest other : Bytes} (le : m ≤ n) (bound : n < 256)
    (next : m = n → rest < other) : UInt8.ofNat m :: rest < UInt8.ofNat n :: other := by
  rw [List.cons_lt_cons_iff]
  rcases Nat.lt_or_eq_of_le le with less | same
  · left
    rwa [UInt8.lt_iff_toNat_lt, UInt8.toNat_ofNat_of_lt' (Nat.lt_trans less bound),
      UInt8.toNat_ofNat_of_lt' bound]
  · exact .inr ⟨congrArg UInt8.ofNat same, next same⟩

/-- Bytes are less if their first one is. -/
theorem cons_lt_cons_of_lt {m n : Nat} {rest other : Bytes} (less : m < n) (bound : n < 256) :
    UInt8.ofNat m :: rest < UInt8.ofNat n :: other :=
  cons_lt_cons_of_le (Nat.le_of_lt less) bound fun same => absurd same (Nat.ne_of_lt less)

/-- The bytes of a lesser character are less, whatever follows. -/
theorem utf8EncodeChar_lt {c d : Char} (less : c < d) (rest other : Bytes) :
    String.utf8EncodeChar c ++ rest < String.utf8EncodeChar d ++ other := by
  have valid : d.val.toNat < 0xd800 ∨ 0xdfff < d.val.toNat ∧ d.val.toNat < 0x110000 := d.valid
  have less : c.val.toNat < d.val.toNat := less
  rw [String.utf8EncodeChar, String.utf8EncodeChar]
  generalize c.val.toNat = u at less
  generalize d.val.toNat = v at less valid
  -- A character with fewer bytes has a lesser first byte; with as many bytes, the higher
  -- digits decide before the lower ones.
  split
  next one =>
    split
    next => exact cons_lt_cons_of_lt (by omega) (by omega)
    split
    next => exact cons_lt_cons_of_lt (by omega) (by omega)
    split
    all_goals exact cons_lt_cons_of_lt (by omega) (by omega)
  split
  next two =>
    split
    next => omega
    split
    next =>
      refine cons_lt_cons_of_le (by omega) (by omega) fun _ => ?_
      exact cons_lt_cons_of_lt (by omega) (by omega)
    split
    all_goals exact cons_lt_cons_of_lt (by omega) (by omega)
  split
  next three =>
    split
    next => omega
    split
    next => omega
    split
    next =>
      refine cons_lt_cons_of_le (by omega) (by omega) fun _ => ?_
      refine cons_lt_cons_of_le (by omega) (by omega) fun _ => ?_
      exact cons_lt_cons_of_lt (by omega) (by omega)
    next => exact cons_lt_cons_of_lt (by omega) (by omega)
  next four =>
    split
    next => omega
    split
    next => omega
    split
    next => omega
    next =>
      refine cons_lt_cons_of_le (by omega) (by omega) fun _ => ?_
      refine cons_lt_cons_of_le (by omega) (by omega) fun _ => ?_
      refine cons_lt_cons_of_le (by omega) (by omega) fun _ => ?_
      exact cons_lt_cons_of_lt (by omega) (by omega)

theorem flatMap_utf8EncodeChar_lt {left right : List Char} (less : left < right) :
    left.flatMap String.utf8EncodeChar < right.flatMap String.utf8EncodeChar := by
  induction less with
  | nil =>
      rename_i d right
      obtain ⟨byte, bytes, encoded⟩ := List.exists_cons_of_ne_nil (String.utf8EncodeChar_ne_nil (c := d))
      rw [List.flatMap_cons, encoded]
      exact .nil
  | cons _ ih => exact List.append_left_lt ih
  | rel less => exact utf8EncodeChar_lt less _ _

/-- Texts are ordered as their bytes are. -/
theorem utf8_lt_utf8_iff {left right : String} : utf8 left < utf8 right ↔ left < right := by
  constructor
  · intro less
    cases order : compare left right with
    | lt => exact compare_eq_lt_iff.mp order
    | eq =>
        rw [Std.LawfulEqOrd.eq_of_compare order] at less
        exact absurd less (List.lt_irrefl _)
    | gt =>
        have greater := compare_eq_lt_iff.mp (Std.OrientedCmp.lt_of_gt order)
        exact absurd (flatMap_utf8EncodeChar_lt greater) (List.lt_asymm less)
  · exact flatMap_utf8EncodeChar_lt

end SceneForge.Text
