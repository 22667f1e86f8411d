import SceneForge.Deflate.Encoder
import SceneForge.Deflate.Inflate

/-!
# Pieces of data

What pieces stand for, and that the pieces which compression takes data apart into
stand for the data. The place that compression has come to and the output that
decompression has produced agree: the output is the data before the place.
-/

namespace SceneForge.Deflate

/-- Data with bytes written again that stand `distance` before its end. -/
def repeated (distance : Nat) : (length : Nat) → (data : Array UInt8) → Array UInt8
  | 0, data => data
  | length + 1, data =>
      repeated distance length (data.push (data.getD (data.size - distance) 0))

/-- Pieces that can be written, and the data that they continue and result in. -/
inductive Continues : Array UInt8 → List Piece → Array UInt8 → Prop
  | nil (data : Array UInt8) : Continues data [] data
  | literal {data whole : Array UInt8} {byte : UInt8} {rest : List Piece}
      (continues : Continues (data.push byte) rest whole) :
      Continues data (.literal byte :: rest) whole
  | copy {data whole : Array UInt8} {length distance : Nat} {rest : List Piece}
      (long : 3 ≤ length) (notTooLong : length ≤ longestCopy) (away : 1 ≤ distance)
      (inWindow : distance ≤ windowSize) (inData : distance ≤ data.size)
      (continues : Continues (repeated distance length data) rest whole) :
      Continues data (.copy length distance :: rest) whole

@[simp] theorem size_repeated (distance length : Nat) (data : Array UInt8) :
    (repeated distance length data).size = data.size + length := by
  induction length generalizing data with
  | zero => rfl
  | succ length ih =>
      rw [repeated, ih, Array.size_push]
      omega

/-- Pieces only add to data. -/
theorem Continues.size_le {data whole : Array UInt8} {pieces : List Piece}
    (continues : Continues data pieces whole) : data.size ≤ whole.size := by
  induction continues with
  | nil data => exact Nat.le_refl _
  | literal continues ih =>
      rw [Array.size_push] at ih
      omega
  | copy long notTooLong away inWindow inData continues ih =>
      rw [size_repeated] at ih
      omega

theorem push_extract (data : Array UInt8) {place : Nat} (inside : place < data.size) :
    (data.extract 0 place).push data[place] = data.extract 0 (place + 1) :=
  Array.push_extract_getElem inside

/-- Bytes that agree with those `distance` earlier are these bytes written again. -/
theorem repeated_extract {data : Array UInt8} {distance : Nat} (away : 1 ≤ distance) {place : Nat}
    (inData : distance ≤ place) {length : Nat} (inside : place + length ≤ data.size)
    (agree : ∀ index < length, data[place - distance + index]? = data[place + index]?) :
    repeated distance length (data.extract 0 place) = data.extract 0 (place + length) := by
  induction length generalizing place with
  | zero => rfl
  | succ length ih =>
      have here : place < data.size := by omega
      have byte : (data.extract 0 place).getD ((data.extract 0 place).size - distance) 0 =
          data[place] := by
        have first := agree 0 (by omega)
        rw [Nat.add_zero, Nat.add_zero, Array.getElem?_eq_getElem here] at first
        have size : (data.extract 0 place).size = place := by
          rw [Array.size_extract]
          omega
        have inside : place - distance < min place data.size - 0 := by omega
        rw [Array.getD_eq_getD_getElem?, size, Array.getElem?_extract, if_pos inside,
          Nat.zero_add, first, Option.getD_some]
      rw [repeated, byte, push_extract data here, ih (by omega) (by omega)]
      · congr 1
        omega
      · intro index less
        have next := agree (index + 1) (by omega)
        have earlier : place + 1 - distance + index = place - distance + (index + 1) := by omega
        have later : place + 1 + index = place + (index + 1) := by omega
        rwa [earlier, later]

theorem agreement_le (data : Array UInt8) (earlier later fuel : Nat) :
    agreement data earlier later fuel ≤ fuel := by
  fun_induction agreement data earlier later fuel with
  | case1 earlier later => exact Nat.le_refl 0
  | case2 earlier later fuel a laterByte earlierByte ih => exact Nat.succ_le_succ ih
  | case3 earlier later fuel a earlierByte b laterByte differ => exact Nat.zero_le _
  | case4 earlier later fuel outside => exact Nat.zero_le _

/-- Agreement is found only where it is. -/
theorem exists_of_lt_agreement {data : Array UInt8} {earlier later fuel index : Nat}
    (less : index < agreement data earlier later fuel) :
    ∃ byte, data[earlier + index]? = some byte ∧ data[later + index]? = some byte := by
  fun_induction agreement data earlier later fuel generalizing index with
  | case1 earlier later => cases less
  | case2 earlier later fuel a laterByte earlierByte ih =>
      cases index with
      | zero => exact ⟨a, earlierByte, laterByte⟩
      | succ index =>
          rw [← Nat.add_assoc, ← Nat.add_assoc, Nat.add_right_comm, Nat.add_right_comm later]
          exact ih (Nat.lt_of_succ_lt_succ less)
  | case3 earlier later fuel a earlierByte b laterByte differ => cases less
  | case4 earlier later fuel outside => cases less

/-- A candidate is a copy that can be written, and continues the data before it. -/
theorem candidate_spec {data : Array UInt8} {seen : Array Nat} {place length distance : Nat}
    (found : candidate data seen place = some (length, distance)) :
    3 ≤ length ∧ length ≤ longestCopy ∧ 1 ≤ distance ∧ distance ≤ windowSize ∧
      distance ≤ place ∧ place + length ≤ data.size ∧
      repeated distance length (data.extract 0 place) = data.extract 0 (place + length) := by
  rw [candidate] at found
  generalize seen.getD (group data place) 0 = noted at found
  split at found
  next => cases found
  next =>
    dsimp only at found
    split at found
    next possible =>
      obtain ⟨long, away, inWindow⟩ := possible
      cases found
      have agree {index : Nat} := @exists_of_lt_agreement data (noted - 1) place longestCopy index
      have notTooLong := agreement_le data (noted - 1) place longestCopy
      generalize agreement data (noted - 1) place longestCopy = length at *
      have inside : place + length ≤ data.size := by
        obtain ⟨byte, _, later⟩ := @agree (length - 1) (by omega)
        have bound := (Array.getElem?_eq_some_iff.mp later).1
        omega
      refine ⟨long, notTooLong, away, inWindow, Nat.sub_le _ _, inside, ?_⟩
      refine repeated_extract away (Nat.sub_le _ _) inside fun index less => ?_
      obtain ⟨byte, earlier, later⟩ := agree less
      have same : place - (place - (noted - 1)) = noted - 1 := by omega
      rw [same, earlier, later]
    next => cases found

/-- The pieces from a place on continue the data before it. -/
theorem piecesFrom_continues (data : Array UInt8) (seen : Array Nat) (place : Nat)
    (before : List Piece) (inside : place ≤ data.size) :
    ∃ pieces, piecesFrom data seen place before = before.reverse ++ pieces ∧
      Continues (data.extract 0 place) pieces data := by
  fun_induction piecesFrom data seen place before with
  | case1 seen place before less length distance found ih =>
      obtain ⟨long, notTooLong, away, inWindow, inData, within, same⟩ := candidate_spec found
      obtain ⟨pieces, rest, continues⟩ := ih within
      refine ⟨.copy (length + 1) distance :: pieces, by rw [rest]; simp, ?_⟩
      apply Continues.copy long notTooLong away inWindow
      · rw [Array.size_extract]
        omega
      · rwa [same]
  | case2 seen place before less noCopy ih =>
      obtain ⟨pieces, rest, continues⟩ := ih less
      refine ⟨.literal data[place] :: pieces, by rw [rest]; simp, .literal ?_⟩
      rwa [push_extract data less]
  | case3 seen place before outside =>
      obtain rfl : place = data.size := by omega
      refine ⟨[], by simp, ?_⟩
      rw [Array.extract_size]
      exact .nil data

/-- Data is what its pieces stand for. -/
theorem pieces_continues (data : List UInt8) : Continues #[] (pieces data) data.toArray := by
  obtain ⟨rest, split, continues⟩ := piecesFrom_continues data.toArray
    (Array.replicate groupCount 0) 0 [] (Nat.zero_le _)
  rw [pieces, split, List.reverse_nil, List.nil_append]
  rwa [Array.extract_zero] at continues

end SceneForge.Deflate
