import Mathlib.Tactic.SplitIfs
import SceneForge.Text.Utf8

/-!
# Reading texts back

The bytes of a text decode to the text: a character's first byte says how many follow,
and every byte adds six bits to what has been read.
-/

namespace SceneForge.Text

variable {position : Nat} {before : List Char} {rest : Bytes}

theorem leading?_two {n : Nat} (low : 0xc2 ≤ n) (high : n ≤ 0xdf) :
    leading? n = some (1, 0x80, 0xbf) := by
  rw [leading?, if_pos ⟨low, high⟩]

/-- The first byte of three rules out shorter characters and surrogates. -/
theorem leading?_three {n : Nat} (low : 0xe0 ≤ n) (high : n ≤ 0xef) :
    leading? n =
      some (2, if n = 0xe0 then 0xa0 else 0x80, if n = 0xed then 0x9f else 0xbf) := by
  rw [leading?, if_neg (by omega)]
  split_ifs <;> first | rfl | omega

/-- The first byte of four rules out shorter characters and what lies beyond them. -/
theorem leading?_four {n : Nat} (low : 0xf0 ≤ n) (high : n ≤ 0xf4) :
    leading? n =
      some (3, if n = 0xf0 then 0x90 else 0x80, if n = 0xf4 then 0x8f else 0xbf) := by
  rw [leading?, if_neg (by omega)]
  split_ifs <;> first | rfl | omega

/-- A byte that leads a character of several bytes. -/
theorem decodeFrom_leading {n more low high : Nat} (small : n < 0x100) (big : 0x80 ≤ n)
    (leads : leading? n = some (more + 1, low, high)) :
    decodeFrom position before none (UInt8.ofNat n :: rest) =
      decodeFrom (position + 1) before (some ⟨⟨more, low, high, n % 2 ^ (5 - more)⟩, position, 1⟩)
        rest := by
  have byte : (UInt8.ofNat n).toNat = n := UInt8.toNat_ofNat_of_lt' small
  rw [decodeFrom, byte, if_neg (by omega), leads]
  simp only [Nat.add_sub_cancel]
  rw [Nat.add_comm more 1, ← Nat.sub_sub]

variable {start read more low high value n : Nat}

/-- A byte within a character, between its bounds. -/
theorem decodeFrom_inner (small : n < 0x100) (above : low ≤ n) (below : n ≤ high) :
    decodeFrom position before (some ⟨⟨more + 1, low, high, value⟩, start, read⟩)
        (UInt8.ofNat n :: rest) =
      decodeFrom (position + 1) before
        (some ⟨⟨more, 0x80, 0xbf, value * 64 + n % 64⟩, start, read + 1⟩) rest := by
  have byte : (UInt8.ofNat n).toNat = n := UInt8.toNat_ofNat_of_lt' small
  have between : ¬ (n < low ∨ high < n) := by omega
  rw [decodeFrom, byte, if_neg between]
  simp

/-- The last byte of a character. -/
theorem decodeFrom_last (small : n < 0x100) (above : low ≤ n) (below : n ≤ high) :
    decodeFrom position before (some ⟨⟨0, low, high, value⟩, start, read⟩) (UInt8.ofNat n :: rest) =
      decodeFrom (position + 1) (Char.ofNat (value * 64 + n % 64) :: before) none rest := by
  have byte : (UInt8.ofNat n).toNat = n := UInt8.toNat_ofNat_of_lt' small
  have between : ¬ (n < low ∨ high < n) := by omega
  rw [decodeFrom, byte, if_neg between]
  simp

/-- The bytes of a character decode to it. -/
theorem decodeFrom_character (c : Char) :
    ∃ next, decodeFrom position before none (String.utf8EncodeChar c ++ rest) =
      decodeFrom next (c :: before) none rest := by
  have valid : c.val.toNat < 0xd800 ∨ 0xdfff < c.val.toNat ∧ c.val.toNat < 0x110000 := c.valid
  have whole : Char.ofNat c.val.toNat = c := c.ofNat_toNat
  rw [String.utf8EncodeChar]
  generalize c.val.toNat = v at valid whole ⊢
  split
  next one =>
    refine ⟨position + 1, ?_⟩
    rw [List.singleton_append, decodeFrom, UInt8.toNat_ofNat_of_lt' (Nat.lt_of_le_of_lt one (by decide)),
      if_pos (by omega),
      whole]
  split
  next two =>
    have leads : leading? (v / 64 % 0x20 + 0xc0) = some (1, 0x80, 0xbf) :=
      leading?_two (by omega) (by omega)
    refine ⟨position + 2, ?_⟩
    rw [List.cons_append, List.singleton_append, decodeFrom_leading (by omega) (by omega) leads,
      decodeFrom_last (by omega) (by omega) (by omega)]
    have value : (v / 64 % 0x20 + 0xc0) % 2 ^ (5 - 0) * 64 + (v % 0x40 + 0x80) % 64 = v := by omega
    rw [value, whole]
  split
  next three =>
    have leads := @leading?_three (v / 4096 % 0x10 + 0xe0) (by omega) (by omega)
    refine ⟨position + 3, ?_⟩
    rw [List.cons_append, List.cons_append, List.singleton_append,
      decodeFrom_leading (by omega) (by omega) leads,
      decodeFrom_inner (by omega) (by split <;> omega) (by split <;> omega),
      decodeFrom_last (by omega) (by omega) (by omega)]
    have value : ((v / 4096 % 0x10 + 0xe0) % 2 ^ (5 - 1) * 64 + (v / 64 % 0x40 + 0x80) % 64) * 64 +
        (v % 0x40 + 0x80) % 64 = v := by omega
    rw [value, whole]
  next four =>
    have leads := @leading?_four (v / 262144 % 0x08 + 0xf0) (by omega) (by omega)
    refine ⟨position + 4, ?_⟩
    rw [List.cons_append, List.cons_append, List.cons_append, List.singleton_append,
      decodeFrom_leading (by omega) (by omega) leads,
      decodeFrom_inner (by omega) (by split <;> omega) (by split <;> omega),
      decodeFrom_inner (by omega) (by omega) (by omega),
      decodeFrom_last (by omega) (by omega) (by omega)]
    have value : (((v / 262144 % 0x08 + 0xf0) % 2 ^ (5 - 2) * 64 + (v / 4096 % 0x40 + 0x80) % 64) *
        64 + (v / 64 % 0x40 + 0x80) % 64) * 64 + (v % 0x40 + 0x80) % 64 = v := by omega
    rw [value, whole]

/-- The bytes of a text decode to it. -/
theorem ofUtf8_utf8 (text : String) : ofUtf8 (utf8 text) = .ok text := by
  have decodes (characters : List Char) (position : Nat) (before : List Char) :
      decodeFrom position before none (characters.flatMap String.utf8EncodeChar) =
        .ok (String.ofList (before.reverse ++ characters)) := by
    induction characters generalizing position before with
    | nil => simp [decodeFrom]
    | cons c characters ih =>
        obtain ⟨next, decoded⟩ := decodeFrom_character c
        rw [List.flatMap_cons, decoded, ih]
        simp
  rw [ofUtf8, utf8, decodes]
  simp

end SceneForge.Text
