import Mathlib.Data.List.Forall2
import SceneForge.Cursor

/-!
# Readers and the forms they accept

A form says which byte strings spell which values. `Reader.Takes` says that a reader
accepts exactly the byte strings of a form, whatever follows them: it is sound, since
what it consumed has the form, and complete, since a byte string of the form is read
wherever it stands. The combinators of readers have their counterparts for forms, so
the form of a layout is put together from the forms of its parts.
-/

namespace SceneForge

namespace Bytes

/-- Cutting pieces of one size that stand one after another gives the pieces. -/
theorem chunks_flatten {size : Nat} (positive : 0 < size) {pieces : List Bytes}
    (sized : ∀ piece ∈ pieces, piece.length = size) : chunks size pieces.flatten = pieces := by
  induction pieces with
  | nil =>
      rw [chunks]
      simp [positive]
  | cons piece pieces ih =>
      have length := sized piece (List.mem_cons_self ..)
      have others := ih fun other member => sized other (List.mem_cons_of_mem _ member)
      have front : (piece ++ pieces.flatten).take size = piece := by
        rw [← length, List.take_left]
      have back : (piece ++ pieces.flatten).drop size = pieces.flatten := by
        rw [← length, List.drop_left]
      rw [chunks, List.flatten_cons]
      simp only [front, back, others]
      rw [if_neg (by omega)]

/-- A byte string whose length is a multiple of a size is cut up without a rest. -/
theorem chunks_of_length {size count : Nat} (positive : 0 < size) {bytes : Bytes}
    (length : bytes.length = count * size) :
    bytes = (chunks size bytes).flatten ∧ (chunks size bytes).length = count ∧
      ∀ piece ∈ chunks size bytes, piece.length = size := by
  induction count generalizing bytes with
  | zero =>
      obtain rfl := List.eq_nil_of_length_eq_zero (length.trans (Nat.zero_mul size))
      rw [chunks]
      simp [positive]
  | succ count ih =>
      rw [Nat.succ_mul] at length
      have front : (bytes.take size).length = size := by
        rw [List.length_take]
        omega
      have back : (bytes.drop size).length = count * size := by
        rw [List.length_drop]
        omega
      obtain ⟨whole, number, sized⟩ := ih back
      rw [chunks]
      simp only [front]
      rw [if_neg (by omega)]
      refine ⟨?_, by rw [List.length_cons, number], ?_⟩
      · rw [List.flatten_cons, ← whole, List.take_append_drop]
      · intro piece member
        cases member with
        | head => exact front
        | tail _ member => exact sized piece member

end Bytes

namespace Reader

variable {α β : Type}

/-- One reader after another: the second begins where the first ends. -/
theorem bind_apply (first : Reader α) (next : α → Reader β) (cursor : Cursor) :
    (first >>= next) cursor =
      match first cursor with
      | .error error => .error error
      | .ok (value, middle) => next value middle := by
  change Except.bind (first cursor) _ = _
  cases first cursor <;> rfl

theorem bind_of_ok {first : Reader α} {cursor after : Cursor} {value : α}
    (read : first cursor = .ok (value, after)) (next : α → Reader β) :
    (first >>= next) cursor = next value after := by
  rw [bind_apply, read]

theorem bind_of_error {first : Reader α} {cursor : Cursor} {error : FormatError}
    (failed : first cursor = .error error) (next : α → Reader β) :
    (first >>= next) cursor = .error error := by
  rw [bind_apply, failed]

/-- A reader takes exactly the byte strings of a form and gives the values that they
spell. -/
def Takes (reader : Reader α) (form : Bytes → α → Prop) : Prop :=
  ∀ (cursor : Cursor) (value : α) (after : Cursor),
    reader cursor = .ok (value, after) ↔
      ∃ bytes, form bytes value ∧ cursor.rest = bytes ++ after.rest ∧
        after.offset = cursor.offset + bytes.length

/-- A reader takes exactly what a writer writes and gives back what was written. -/
def Inverts (reader : Reader α) (encode : α → Bytes) : Prop :=
  reader.Takes fun bytes value => bytes = encode value

namespace Takes

/-- A form may be replaced by an equivalent one. -/
theorem congr {reader : Reader α} {form other : Bytes → α → Prop}
    (takes : reader.Takes form) (equivalent : ∀ bytes value, form bytes value ↔ other bytes value) :
    reader.Takes other := by
  intro cursor value after
  rw [takes cursor value after]
  simp only [equivalent]

/-- A byte string of the form is read wherever it stands. -/
theorem apply {reader : Reader α} {form : Bytes → α → Prop} (takes : reader.Takes form)
    {bytes : Bytes} {value : α} (spelled : form bytes value) (offset : Nat) (rest : Bytes) :
    reader ⟨offset, bytes ++ rest⟩ = .ok (value, ⟨offset + bytes.length, rest⟩) :=
  (takes ⟨offset, bytes ++ rest⟩ value ⟨offset + bytes.length, rest⟩).mpr
    ⟨bytes, spelled, rfl, rfl⟩

/-- Reading a whole byte string that has the form leaves nothing over. -/
theorem onBytes {reader : Reader α} {form : Bytes → α → Prop} (takes : reader.Takes form)
    {bytes : Bytes} {value : α} (spelled : form bytes value) :
    reader.onBytes bytes = .ok (value, ⟨bytes.length, []⟩) := by
  have read := takes.apply spelled 0 []
  rwa [List.append_nil, Nat.zero_add] at read

/-- Reading a byte string that begins with the form leaves over what follows. -/
theorem onBytes_append {reader : Reader α} {form : Bytes → α → Prop} (takes : reader.Takes form)
    {bytes : Bytes} {value : α} (spelled : form bytes value) (rest : Bytes) :
    reader.onBytes (bytes ++ rest) = .ok (value, ⟨bytes.length, rest⟩) := by
  have read := takes.apply spelled 0 rest
  rwa [Nat.zero_add] at read

/-- What is read of a byte string as a whole is what its first bytes spell. -/
theorem of_onBytes {reader : Reader α} {form : Bytes → α → Prop} (takes : reader.Takes form)
    {bytes : Bytes} {value : α} {after : Cursor}
    (read : reader.onBytes bytes = .ok (value, after)) :
    ∃ front, form front value ∧ bytes = front ++ after.rest ∧ after.offset = front.length := by
  obtain ⟨front, spelled, split, moved⟩ := (takes _ _ _).mp read
  exact ⟨front, spelled, split, by simpa [Cursor.start] using moved⟩

/-- A reader that has to use a byte string up accepts what has the form as a whole. -/
theorem whole_eq_ok_iff {reader : Reader α} {form : Bytes → α → Prop} (takes : reader.Takes form)
    (fault : Cursor → FormatError) {bytes : Bytes} {value : α} :
    (do
      let (value, cursor) ← reader.onBytes bytes
      if cursor.rest.isEmpty then .ok value else .error (fault cursor)) = .ok value ↔
      form bytes value := by
  constructor
  · intro accepted
    cases read : reader.onBytes bytes with
    | error error =>
        rw [read] at accepted
        cases accepted
    | ok pair =>
        obtain ⟨found, after⟩ := pair
        rw [read] at accepted
        obtain ⟨front, spelled, split, _⟩ := takes.of_onBytes read
        change (if after.rest.isEmpty then _ else _) = _ at accepted
        split at accepted
        next nothing =>
          cases accepted
          rwa [split, List.isEmpty_iff.mp nothing, List.append_nil]
        next => cases accepted
  · intro spelled
    rw [takes.onBytes spelled]
    rfl

theorem pure (value : α) :
    Takes (Pure.pure value : Reader α) fun bytes result => bytes = [] ∧ value = result := by
  intro cursor result after
  constructor
  · intro read
    have equal : (value, cursor) = (result, after) := Except.ok.inj read
    cases equal
    exact ⟨[], ⟨rfl, rfl⟩, rfl, rfl⟩
  · rintro ⟨bytes, ⟨rfl, rfl⟩, split, moved⟩
    cases cursor
    cases after
    simp only [List.nil_append, List.length_nil, Nat.add_zero] at split moved
    subst split moved
    rfl

theorem throw (error : FormatError) :
    Takes (MonadExcept.throw error : Reader α) fun _ _ => False := by
  intro cursor value after
  constructor
  · intro read
    cases read
  · rintro ⟨_, impossible, _⟩
    exact impossible.elim

/-- One reader after another takes what the first takes, followed by what the second
takes. -/
theorem bind {first : Reader α} {next : α → Reader β} {front : Bytes → α → Prop}
    {back : α → Bytes → β → Prop} (takesFront : first.Takes front)
    (takesBack : ∀ value, (next value).Takes (back value)) :
    Takes (first >>= next) fun bytes result =>
      ∃ value left right, bytes = left ++ right ∧ front left value ∧ back value right result := by
  intro cursor result after
  rw [bind_apply]
  constructor
  · intro read
    cases firstRead : first cursor with
    | error error =>
        rw [firstRead] at read
        cases read
    | ok pair =>
        obtain ⟨value, middle⟩ := pair
        rw [firstRead] at read
        obtain ⟨left, spelledLeft, splitLeft, movedLeft⟩ := (takesFront _ _ _).mp firstRead
        obtain ⟨right, spelledRight, splitRight, movedRight⟩ := (takesBack value _ _ _).mp read
        refine ⟨left ++ right, ⟨value, left, right, rfl, spelledLeft, spelledRight⟩, ?_, ?_⟩
        · rw [splitLeft, splitRight, List.append_assoc]
        · rw [movedRight, movedLeft, List.length_append, Nat.add_assoc]
  · rintro ⟨bytes, ⟨value, left, right, rfl, spelledLeft, spelledRight⟩, split, moved⟩
    have firstRead : first cursor =
        .ok (value, ⟨cursor.offset + left.length, right ++ after.rest⟩) :=
      (takesFront _ _ _).mpr ⟨left, spelledLeft, by rw [split, List.append_assoc], rfl⟩
    rw [firstRead]
    refine (takesBack value _ _ _).mpr ⟨right, spelledRight, rfl, ?_⟩
    rw [moved, List.length_append, Nat.add_assoc]

theorem map {reader : Reader α} {form : Bytes → α → Prop} (image : α → β)
    (takes : reader.Takes form) :
    Takes (image <$> reader) fun bytes result => ∃ value, form bytes value ∧ image value = result := by
  refine (takes.bind fun value => pure (image value)).congr fun bytes result => ?_
  constructor
  · rintro ⟨value, left, right, rfl, spelled, rfl, rfl⟩
    exact ⟨value, by rwa [List.append_nil], rfl⟩
  · rintro ⟨value, spelled, rfl⟩
    exact ⟨value, bytes, [], (List.append_nil bytes).symm, spelled, rfl, rfl⟩

theorem bytes (count : Nat) :
    Takes (Reader.bytes count) fun bytes result => bytes = result ∧ result.length = count := by
  intro cursor result after
  rw [Reader.bytes]
  cases split : splitAt? count cursor.rest with
  | none =>
      constructor
      · intro read
        cases read
      · rintro ⟨bytes, ⟨rfl, rfl⟩, whole, _⟩
        rw [splitAt?_eq_none_iff, whole, List.length_append] at split
        omega
  | some pair =>
      obtain ⟨taken, rest⟩ := pair
      obtain ⟨whole, rfl⟩ := splitAt?_eq_some_iff.mp split
      constructor
      · intro read
        cases read
        exact ⟨_, ⟨rfl, rfl⟩, whole, rfl⟩
      · rintro ⟨bytes, ⟨rfl, sameLength⟩, other, moved⟩
        obtain ⟨rfl, rfl⟩ := List.append_inj (whole.symm.trans other) sameLength.symm
        cases after
        subst moved
        rfl

theorem word : Takes Reader.word fun bytes result => bytes = Bytes.ofUInt32 result := by
  refine ((bytes 4).map Bytes.toUInt32).congr fun bytes result => ?_
  constructor
  · rintro ⟨_, ⟨rfl, length⟩, rfl⟩
    exact (Bytes.ofUInt32_toUInt32 length).symm
  · rintro rfl
    exact ⟨_, ⟨rfl, Bytes.length_ofUInt32 result⟩, Bytes.toUInt32_ofUInt32 result⟩

theorem byte : Takes Reader.byte fun bytes result => bytes = [result] := by
  refine ((bytes 1).map fun taken => UInt8.ofNat (Bytes.toNat taken)).congr fun bytes result => ?_
  constructor
  · rintro ⟨_, ⟨rfl, length⟩, rfl⟩
    obtain ⟨only, rfl⟩ := List.length_eq_one_iff.mp length
    simp [Bytes.toNat]
  · rintro rfl
    exact ⟨_, ⟨rfl, rfl⟩, by simp [Bytes.toNat]⟩

theorem halfWord :
    Takes Reader.halfWord fun bytes result => bytes = Bytes.ofNat 2 result.toNat := by
  refine ((bytes 2).map fun taken => UInt16.ofNat (Bytes.toNat taken)).congr fun bytes result => ?_
  constructor
  · rintro ⟨_, ⟨rfl, length⟩, rfl⟩
    have small := Bytes.toNat_lt bytes
    rw [length] at small
    rw [UInt16.toNat_ofNat_of_lt' small, ← length, Bytes.ofNat_toNat]
  · rintro rfl
    have small : result.toNat < 256 ^ 2 := result.toNat_lt
    refine ⟨_, ⟨rfl, Bytes.length_ofNat 2 _⟩, ?_⟩
    rw [Bytes.toNat_ofNat, Nat.mod_eq_of_lt small, UInt16.ofNat_toNat]

theorem longWord : Takes Reader.longWord fun bytes result => bytes = Bytes.ofUInt64 result := by
  refine ((bytes 8).map fun taken => UInt64.ofNat (Bytes.toNat taken)).congr fun bytes result => ?_
  constructor
  · rintro ⟨_, ⟨rfl, length⟩, rfl⟩
    have small := Bytes.toNat_lt bytes
    rw [length] at small
    rw [Bytes.ofUInt64, UInt64.toNat_ofNat_of_lt' small, ← length, Bytes.ofNat_toNat]
  · rintro rfl
    have small : result.toNat < 256 ^ 8 := result.toNat_lt
    refine ⟨_, ⟨rfl, Bytes.length_ofUInt64 _⟩, ?_⟩
    rw [Bytes.ofUInt64, Bytes.toNat_ofNat, Nat.mod_eq_of_lt small, UInt64.ofNat_toNat]

/-- An outcome that does not depend on the bytes takes none of them. -/
theorem lift (outcome : Except FormatError α) :
    Takes (liftM outcome : Reader α) fun bytes result => bytes = [] ∧ outcome = .ok result := by
  cases outcome with
  | error error =>
      refine (throw error).congr fun bytes result => ?_
      simp
  | ok value =>
      refine (pure value).congr fun bytes result => ?_
      simp

/-- A record of fixed size is read as a whole. -/
theorem record {reader : Reader α} {form : Bytes → α → Prop} (takes : reader.Takes form)
    {size : Nat} (sized : ∀ bytes value, form bytes value → bytes.length = size) :
    (do let (value, _) ← reader.onBytes (← Reader.bytes size); return value : Reader α).Takes
      form := by
  refine ((bytes size).bind fun taken =>
    (lift (reader.onBytes taken)).bind fun pair => pure pair.1).congr fun bytes value => ?_
  constructor
  · rintro ⟨taken, _, _, rfl, ⟨rfl, length⟩, ⟨_, after⟩, _, _, rfl, ⟨rfl, read⟩, rfl, rfl⟩
    obtain ⟨front, spelled, split, _⟩ := takes.of_onBytes read
    have frontLength := sized front _ spelled
    rw [split, List.length_append] at length
    have nothing : after.rest = [] := List.eq_nil_of_length_eq_zero (by omega)
    simpa [split, nothing] using spelled
  · intro spelled
    exact ⟨bytes, bytes, [], (List.append_nil bytes).symm, ⟨rfl, sized bytes value spelled⟩,
      (value, ⟨bytes.length, []⟩), [], [], rfl, ⟨rfl, takes.onBytes spelled⟩, rfl, rfl⟩

/-- Several records of fixed size are read in one piece. -/
theorem records {size count : Nat} (positive : 0 < size) (small : count * size < 2 ^ 64) :
    Takes (Reader.records size count) fun bytes pieces =>
      bytes = pieces.flatten ∧ pieces.length = count ∧ ∀ piece ∈ pieces, piece.length = size := by
  rw [Reader.records, if_neg (Nat.not_le.mpr small)]
  refine ((bytes (count * size)).map (Bytes.chunks size)).congr fun bytes pieces => ?_
  constructor
  · rintro ⟨_, ⟨rfl, length⟩, rfl⟩
    exact Bytes.chunks_of_length positive length
  · rintro ⟨rfl, rfl, sized⟩
    refine ⟨_, ⟨rfl, ?_⟩, Bytes.chunks_flatten positive sized⟩
    rw [List.length_flatten, List.map_congr_left sized, List.map_const', List.sum_replicate_nat]

/-- Readers of no bytes, one for each element of a list. -/
theorem mapM {reader : α → Reader β} {gives : α → β → Prop}
    (takes : ∀ value, (reader value).Takes fun bytes result => bytes = [] ∧ gives value result)
    (values : List α) :
    Takes (values.mapM reader) fun bytes results =>
      bytes = [] ∧ List.Forall₂ gives values results := by
  induction values with
  | nil =>
      refine (pure []).congr fun bytes results => ?_
      simp
  | cons value values ih =>
      rw [List.mapM_cons]
      refine ((takes value).bind fun first => ih.bind fun others => pure (first :: others)).congr
        fun bytes results => ?_
      constructor
      · rintro ⟨first, _, _, rfl, ⟨rfl, given⟩, others, _, _, rfl, ⟨rfl, all⟩, rfl, rfl⟩
        exact ⟨rfl, .cons given all⟩
      · rintro ⟨rfl, all⟩
        cases all with
        | @cons _ first _ others given all =>
            exact ⟨first, [], [], rfl, ⟨rfl, given⟩, others, [], [], rfl, ⟨rfl, all⟩, rfl, rfl⟩

/-- Reading several times takes one byte string of the form after another. -/
theorem replicate {reader : Reader α} {form : Bytes → α → Prop} (takes : reader.Takes form)
    (count : Nat) :
    Takes (reader.replicate count) fun bytes values =>
      values.length = count ∧
        ∃ pieces, bytes = pieces.flatten ∧ List.Forall₂ form pieces values := by
  induction count with
  | zero =>
      refine (pure []).congr fun bytes values => ?_
      constructor
      · rintro ⟨rfl, rfl⟩
        exact ⟨rfl, [], rfl, .nil⟩
      · rintro ⟨none, pieces, rfl, spelled⟩
        obtain rfl := List.eq_nil_of_length_eq_zero none
        cases spelled
        exact ⟨rfl, rfl⟩
  | succ count ih =>
      refine (takes.bind fun first => ih.bind fun others => pure (first :: others)).congr
        fun bytes values => ?_
      constructor
      · rintro ⟨first, left, _, rfl, spelledFirst, others, right, _, rfl,
          ⟨length, pieces, rfl, spelled⟩, rfl, rfl⟩
        refine ⟨by rw [List.length_cons, length], left :: pieces, ?_, .cons spelledFirst spelled⟩
        rw [List.append_nil, List.flatten_cons]
      · rintro ⟨length, pieces, rfl, spelled⟩
        cases spelled with
        | nil => cases length
        | @cons left first pieces others spelledFirst spelled =>
            refine ⟨first, left, pieces.flatten, rfl, spelledFirst, others, pieces.flatten, [],
              (List.append_nil _).symm, ⟨Nat.succ.inj length, pieces, rfl, spelled⟩, rfl, rfl⟩

/-- Reading several things, each of which is taken apart in the same way. -/
theorem replicate_raw {Raw : Type} {reader : Reader α} {write : Raw → Bytes} {fits : Raw → Prop}
    {spells : Raw → α → Prop}
    (takes : reader.Takes fun bytes value => ∃ raw, bytes = write raw ∧ fits raw ∧ spells raw value)
    (count : Nat) :
    Takes (reader.replicate count) fun bytes values =>
      ∃ raws : List Raw, bytes = raws.flatMap write ∧ raws.length = count ∧
        (∀ raw ∈ raws, fits raw) ∧ List.Forall₂ spells raws values := by
  refine (takes.replicate count).congr fun bytes values => ?_
  constructor
  · rintro ⟨rfl, pieces, rfl, spelled⟩
    induction spelled with
    | nil => exact ⟨[], rfl, rfl, by simp, .nil⟩
    | @cons piece value pieces values first _ ih =>
        obtain ⟨raw, rfl, fit, spelled⟩ := first
        obtain ⟨raws, whole, number, allFit, allSpelled⟩ := ih
        refine ⟨raw :: raws, ?_, by rw [List.length_cons, number, List.length_cons], ?_,
          .cons spelled allSpelled⟩
        · rw [List.flatten_cons, List.flatMap_cons, whole]
        · simpa using ⟨fit, allFit⟩
  · rintro ⟨raws, rfl, rfl, allFit, allSpelled⟩
    refine ⟨allSpelled.length_eq.symm, raws.map write, List.flatMap_def, ?_⟩
    rw [List.forall₂_map_left_iff]
    induction allSpelled with
    | nil => exact .nil
    | @cons raw value raws values spelled _ ih =>
        refine .cons ⟨raw, rfl, allFit raw (List.mem_cons_self ..), spelled⟩ (ih ?_)
        exact fun other member => allFit other (List.mem_cons_of_mem _ member)

end Takes

end Reader

end SceneForge
