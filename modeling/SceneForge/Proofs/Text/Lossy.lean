import SceneForge.Proofs.Text

/-!
# Texts of any bytes

Bytes that spell a text are shown as this text, and the others with something in the place of
what is no text. Characters of one byte stay what they are in either case, so that what they
separate stays apart, and none comes out that was not there.
-/

namespace SceneForge.Text

/-- Bytes that decode are shown as they decode. -/
theorem replaceFrom_of_decodeFrom {bytes : Bytes} {position : Nat} {before : List Char}
    {pending : Option Pending} {text : String}
    (decoded : decodeFrom position before pending bytes = .ok text) :
    text.toList = before.reverse ++ replaceFrom (pending.map (·.toAwaited)) bytes := by
  induction bytes generalizing position before pending with
  | nil =>
      cases pending with
      | none =>
          cases decoded
          simp [replaceFrom]
      | some pending => cases decoded
  | cons byte rest ih =>
      cases pending with
      | none =>
          rw [decodeFrom] at decoded
          rw [Option.map_none, replaceFrom, begin]
          split at decoded
          next single =>
            rw [if_pos single, ih decoded]
            simp
          next several =>
            rw [if_neg several]
            split at decoded
            next => cases decoded
            next more low high leads => exact ih decoded
      | some pending =>
          rw [decodeFrom] at decoded
          rw [Option.map_some, replaceFrom, resume]
          split at decoded
          next => cases decoded
          next between =>
            rw [if_neg between]
            split at decoded
            next last =>
              rw [if_pos last, ih decoded]
              simp
            next inner =>
              rw [if_neg inner]
              exact ih decoded

/-- A text is shown as it is. -/
@[simp] theorem lossy_utf8 (text : String) : lossy (utf8 text) = text := by
  have shown := replaceFrom_of_decodeFrom (ofUtf8_utf8 text)
  rw [lossy]
  exact String.toList_inj.mp (by simpa using shown.symm)

theorem utf8_inj {text other : String} (same : utf8 text = utf8 other) : text = other := by
  rw [← lossy_utf8 text, same, lossy_utf8]

theorem utf8_append (text other : String) : utf8 (text ++ other) = utf8 text ++ utf8 other := by
  simp [utf8]

/-- What is awaited inside a character of several bytes: no byte that is a character, and so
much that none of the characters of one byte comes out. -/
structure Awaited.Long (awaited : Awaited) : Prop where
  low_ge : 0x80 ≤ awaited.low
  high_le : awaited.high ≤ 0xbf
  value_ge : 2 ≤ awaited.value ∨ 1 ≤ awaited.more ∧ (1 ≤ awaited.value ∨ 0x90 ≤ awaited.low)

theorem long_of_begin {byte : UInt8} {awaited : Awaited} (begun : (begin byte).2 = some awaited) :
    awaited.Long := by
  simp only [begin] at begun
  split at begun
  next => cases begun
  next several =>
    rw [leading?] at begun
    split_ifs at begun <;> cases begun <;> constructor <;> dsimp only <;> omega

theorem Awaited.Long.resume {awaited next : Awaited} (long : awaited.Long) {byte : UInt8}
    (resumed : (resume awaited byte).2 = some next) : next.Long := by
  obtain ⟨low, high, value⟩ := long
  simp only [Text.resume] at resumed
  split at resumed
  next => exact long_of_begin resumed
  next between =>
    split at resumed
    next => cases resumed
    next inner =>
      cases resumed
      constructor <;> dsimp only <;> omega

section Single

variable {byte : UInt8} (single : byte.toNat < 0x80)
include single

theorem begin_of_single : begin byte = ([Char.ofNat byte.toNat], none) := by
  rw [begin, if_pos single]

theorem resume_of_single {awaited : Awaited} (long : awaited.Long) :
    resume awaited byte = ([replacement, Char.ofNat byte.toNat], none) := by
  have low := long.low_ge
  rw [resume, if_pos (by omega), begin_of_single single]

/-- A character of one byte keeps apart what stands before it and behind it. -/
theorem replaceFrom_append_single {awaited : Option Awaited} (long : ∀ next ∈ awaited, next.Long)
    (front rest : Bytes) : replaceFrom awaited (front ++ byte :: rest) =
      replaceFrom awaited front ++ Char.ofNat byte.toNat :: replaceFrom none rest := by
  induction front generalizing awaited with
  | nil =>
      cases awaited with
      | none => simp [replaceFrom, begin_of_single single]
      | some awaited => simp [replaceFrom, resume_of_single single (long awaited rfl)]
  | cons first front ih =>
      cases awaited with
      | none =>
          rw [List.cons_append, replaceFrom, replaceFrom, ih fun _ => long_of_begin,
            List.append_assoc]
      | some awaited =>
          rw [List.cons_append, replaceFrom, replaceFrom, ih fun _ => (long awaited rfl).resume,
            List.append_assoc]

theorem toList_lossy_append (front rest : Bytes) : (lossy (front ++ byte :: rest)).toList =
    (lossy front).toList ++ Char.ofNat byte.toNat :: (lossy rest).toList := by
  rw [lossy, lossy, lossy, String.toList_ofList, String.toList_ofList, String.toList_ofList]
  exact replaceFrom_append_single single (by simp) front rest

end Single

theorem eq_of_slash_eq {n : Nat} (slash : '/' = Char.ofNat n) : n = 0x2f := by
  by_cases valid : n.isValidChar
  · have value : (Char.ofNat n).toNat = n := by
      rw [Char.ofNat, dif_pos valid]
      rfl
    rw [← slash] at value
    exact value.symm
  · have zero : (Char.ofNat n).toNat = 0 := by
      rw [Char.ofNat, dif_neg valid]
      rfl
    rw [← slash] at zero
    cases zero

/-- A slash is shown only where one stands. -/
theorem slash_mem_of_begin {byte : UInt8} (member : '/' ∈ (begin byte).1) : byte = 0x2f := by
  simp only [begin] at member
  split at member
  next => exact UInt8.toNat_inj.mp (eq_of_slash_eq (List.mem_singleton.mp member))
  next =>
    split at member
    next => exact absurd (List.mem_singleton.mp member) (by decide)
    next => cases member

theorem slash_mem_of_resume {awaited : Awaited} (long : awaited.Long) {byte : UInt8}
    (member : '/' ∈ (resume awaited byte).1) : byte = 0x2f := by
  simp only [resume] at member
  split at member
  next =>
    rcases List.mem_cons.mp member with wrong | member
    · exact absurd wrong (by decide)
    · exact slash_mem_of_begin member
  next between =>
    split at member
    next last =>
      have value := eq_of_slash_eq (List.mem_singleton.mp member)
      obtain ⟨low, high, big⟩ := long
      omega
    next => cases member

theorem slash_mem_of_replaceFrom {awaited : Option Awaited} (long : ∀ next ∈ awaited, next.Long)
    {bytes : Bytes} (member : '/' ∈ replaceFrom awaited bytes) : 0x2f ∈ bytes := by
  induction bytes generalizing awaited with
  | nil =>
      cases awaited with
      | none => cases member
      | some awaited => exact absurd (List.mem_singleton.mp member) (by decide)
  | cons byte rest ih =>
      cases awaited with
      | none =>
          rcases List.mem_append.mp member with here | later
          · exact slash_mem_of_begin here ▸ List.mem_cons_self
          · exact List.mem_cons_of_mem _ (ih (fun _ => long_of_begin) later)
      | some awaited =>
          rcases List.mem_append.mp member with here | later
          · exact slash_mem_of_resume (long awaited rfl) here ▸ List.mem_cons_self
          · exact List.mem_cons_of_mem _ (ih (fun _ => (long awaited rfl).resume) later)

theorem slash_mem_of_lossy {bytes : Bytes} (member : '/' ∈ (lossy bytes).toList) :
    0x2f ∈ bytes := by
  rw [lossy, String.toList_ofList] at member
  exact slash_mem_of_replaceFrom (by simp) member

/-- The bytes of a text below 128 are characters of it. -/
theorem mem_of_mem_utf8 {text : String} {byte : UInt8} (single : byte.toNat < 0x80)
    (member : byte ∈ utf8 text) : Char.ofNat byte.toNat ∈ text.toList := by
  obtain ⟨c, inside, member⟩ := List.mem_flatMap.mp member
  have value : byte.toNat = c.toNat := by
    rw [String.utf8EncodeChar] at member
    change _ = c.val.toNat
    generalize c.val.toNat = v at member ⊢
    have lead {n : Nat} (same : byte = UInt8.ofNat n) (least : 0x80 ≤ n) (greatest : n < 0x100) :
        byte.toNat = v := by
      rw [same, UInt8.toNat_ofNat_of_lt' greatest] at single
      omega
    split at member
    next one =>
      rw [List.mem_singleton.mp member]
      exact UInt8.toNat_ofNat_of_lt' (Nat.lt_of_le_of_lt one (by decide))
    split at member
    next two =>
      simp only [List.mem_cons, List.not_mem_nil, or_false] at member
      rcases member with same | same <;> exact lead same (by omega) (by omega)
    split at member
    next three =>
      simp only [List.mem_cons, List.not_mem_nil, or_false] at member
      rcases member with same | same | same <;> exact lead same (by omega) (by omega)
    next four =>
      simp only [List.mem_cons, List.not_mem_nil, or_false] at member
      rcases member with same | same | same | same <;> exact lead same (by omega) (by omega)
  rw [value, Char.ofNat_toNat]
  exact inside

end SceneForge.Text
