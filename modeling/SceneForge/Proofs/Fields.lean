import SceneForge.Fields
import SceneForge.Proofs.Binary.Arithmetic
import SceneForge.Proofs.Results

/-!
# Numbers read from fields

A reader of a field gives its default or what it makes of the value that is there. The
numbers that are checked after narrowing are finite, and stay so when degrees become
radians; times of day stay in the day.
-/

namespace SceneForge

open Binary

namespace Binary.Single

/-- The factor from degrees to radians. -/
theorem value_degree : degree.value = 9370165 / 536870912 := by
  rw [value_of_units degree (n := 9370165) (k := 29) (by decide +kernel)]
  norm_num

/-- A finite number stays finite when it is multiplied by one that is not above one. -/
theorem isFinite_mul {x y : Single} (finite : x.isFinite) (factor : y.isFinite)
    (small : |y.value| ≤ 1) : (x * y).isFinite := by
  have represented : Pattern.Represented .single |x.value| := by
    rw [value, Pattern.abs_value]
    exact ⟨⟨false, x.pattern.code⟩, finite, rfl⟩
  have magnitude : |x.value * y.value| ≤ |x.value| := by
    rw [abs_mul]
    exact mul_le_of_le_one_right (abs_nonneg _) small
  exact ((rounds_mul finite factor).magnitude_le represented magnitude).1

/-- Finite angles are finite in radians, too. -/
theorem isFinite_toRadians {x : Single} (finite : x.isFinite) : x.toRadians.isFinite := by
  refine isFinite_mul finite (by decide +kernel) ?_
  rw [value_degree]
  norm_num [abs_le]

end Binary.Single

/-- All components of a vector are finite. -/
def Vector3.Finite (v : Vector3) : Prop := ∀ x ∈ v.toList, x.isFinite

/-- All components of a rotation are finite. -/
def Quaternion.Finite (q : Quaternion) : Prop := ∀ x ∈ q.toList, x.isFinite

theorem isFinite_getD {numbers : List Single} (finite : ∀ x ∈ numbers, x.isFinite) (index : Nat) :
    (numbers.getD index 0).isFinite := by
  rw [List.getD_eq_getElem?_getD]
  cases found : numbers[index]? with
  | none => decide +kernel
  | some x => exact finite x (List.mem_of_getElem? found)

theorem Vector3.finite_ofList {numbers : List Single} (finite : ∀ x ∈ numbers, x.isFinite) :
    (ofList numbers).Finite := by
  simp only [Finite, ofList, toList, List.forall_mem_cons]
  exact ⟨isFinite_getD finite 0, isFinite_getD finite 1, isFinite_getD finite 2,
    List.forall_mem_nil _⟩

theorem Quaternion.finite_ofList {numbers : List Single} (finite : ∀ x ∈ numbers, x.isFinite) :
    (ofList numbers).Finite := by
  simp only [Finite, ofList, toList, List.forall_mem_cons]
  exact ⟨isFinite_getD finite 0, isFinite_getD finite 1, isFinite_getD finite 2,
    isFinite_getD finite 3, List.forall_mem_nil _⟩

namespace FieldValue

variable {value : Json.Value} {x : Single}

/-- A number that is read is finite: it was narrowed first. -/
theorem isFinite_of_number (read : number value = .ok x) : x.isFinite := by
  rw [number] at read
  split at read
  next => cases read
  next narrowed _ =>
    split at read
    next finite =>
      cases read
      exact finite
    next => cases read

theorem isFinite_of_numbers {count : Nat} {xs : List Single} (read : numbers count value = .ok xs) :
    ∀ x ∈ xs, x.isFinite := by
  rw [numbers.eq_def] at read
  split at read
  next elements =>
    split at read
    next =>
      intro x member
      obtain ⟨element, -, narrowed⟩ := exists_of_forall₂ (mapM_eq_ok_iff.mp read).flip member
      exact isFinite_of_number narrowed
    next => cases read
  next => cases read

theorem isFinite_of_angle (read : angle value = .ok x) : x.isFinite := by
  obtain ⟨degrees, number, same⟩ := bind_eq_ok_iff.mp read
  cases same
  exact Single.isFinite_toRadians (isFinite_of_number number)

/-- A number of hours in a day. -/
structure InDay (hours : Single) : Prop where
  finite : hours.isFinite
  nonneg : 0 ≤ hours.value
  lt_day : hours.value < 24

theorem inDay_of_bounds (lower : Single.le 0 x) (upper : x.lt 24) : InDay x := by
  have bounds : (Single.pattern 0).key ≤ x.pattern.key ∧ x.pattern.key < (Single.pattern 24).key :=
    ⟨of_decide_eq_true (Bool.and_eq_true_iff.mp lower).2,
      of_decide_eq_true (Bool.and_eq_true_iff.mp upper).2⟩
  have zero : (Single.pattern 0).key = 0 := by decide +kernel
  have day : (Single.pattern 24).key < Format.single.infinityCode := by decide +kernel
  have finite : x.isFinite := by
    rw [Single.isFinite, Pattern.isFinite_iff_key, abs_lt]
    omega
  refine ⟨finite, ?_, ?_⟩
  · have least := Single.value_ofNat 0 (by decide)
    rw [Single.le_iff (Single.isFinite_ofNat 0 (by decide)) finite, least] at lower
    exact_mod_cast lower
  · have day := Single.value_ofNat 24 (by decide)
    rw [Single.lt_iff finite (Single.isFinite_ofNat 24 (by decide)), day] at upper
    exact_mod_cast upper

/-- A time of day is in the day. -/
theorem inDay_of_timeOfDay (read : timeOfDay value = .ok x) : InDay x := by
  have checked {hours : Single} (passes : (if Single.le 0 hours && hours.lt 24 then pure hours
      else throw (FieldFault.timeOutside hours) : Except FieldFault Single) = .ok x) : InDay x := by
    split at passes
    next bounds =>
      cases passes
      obtain ⟨lower, upper⟩ := Bool.and_eq_true_iff.mp bounds
      exact inDay_of_bounds lower upper
    next => cases passes
  rw [timeOfDay.eq_def] at read
  dsimp only at read
  split at read
  · split at read <;> obtain ⟨hours, -, passes⟩ := bind_eq_ok_iff.mp read <;> exact checked passes
  · obtain ⟨hours, -, passes⟩ := bind_eq_ok_iff.mp read
    exact checked passes

end FieldValue

namespace Fields

variable {fields : Fields} {field : String} {α : Type} {default result : α}
  {read : Json.Value → Except FieldFault α}

theorem optional_eq_ok_iff :
    fields.optional field default read = .ok result ↔
      fields.get? field = none ∧ result = default ∨
        ∃ value, fields.get? field = some value ∧ read value = .ok result := by
  rw [optional]
  cases fields.get? field with
  | none => simp [eq_comm]
  | some value => simp [mapError_eq_ok_iff]

/-- What holds of the default and of whatever is read holds of the result. -/
theorem optional_induct (holds : α → Prop) (standard : holds default)
    (authored : ∀ value result, read value = .ok result → holds result)
    (succeeds : fields.optional field default read = .ok result) : holds result := by
  rcases optional_eq_ok_iff.mp succeeds with ⟨-, rfl⟩ | ⟨value, -, reads⟩
  · exact standard
  · exact authored value result reads

theorem finite_of_vector {v standard : Vector3} (finite : standard.Finite)
    (reads : fields.vector field standard = .ok v) : v.Finite := by
  refine optional_induct Vector3.Finite finite (fun value v reads => ?_) reads
  cases numbers : FieldValue.numbers 3 value with
  | error fault =>
      rw [numbers] at reads
      cases reads
  | ok xs =>
      rw [numbers] at reads
      cases reads
      exact Vector3.finite_ofList (FieldValue.isFinite_of_numbers numbers)

end Fields

end SceneForge
