import SceneForge.Material.Overrides
import SceneForge.Proofs.Compile.Answer
import SceneForge.Proofs.Decimal
import SceneForge.Proofs.Material
import SceneForge.Proofs.Text.Words

/-!
# Integer properties

Authored integers pass through double precision, which has not all of them. Those that fit 32
bits are exact there, and rounding moves no other integer into this range, as its bounds and
their neighbours are exact as well. So an integer is kept as it is or refused, however it is
authored.
-/

namespace SceneForge

open Binary

/-- The spelling of an integer is one word. -/
theorem Decimal.SpellsInteger.isWord {n : ℤ} {written : List Char}
    (spells : SpellsInteger n written) : Text.IsWord written := by
  have solid {digits : List Nat} {written : List Char}
      (spelled : Json.Token.Digits digit? digits written) :
      ∀ c ∈ written, Text.isSpace c = false := by
    intro c member
    obtain ⟨digit, -, read⟩ := exists_of_forall₂ spelled.flip member
    exact Text.isSpace_of_isDigit (isDigit_of_digit? read)
  cases spells with
  | unsigned some_digit spelled =>
      refine ⟨?_, solid spelled⟩
      rintro rfl
      cases spelled
      exact some_digit rfl
  | plus _ spelled | minus _ spelled =>
      exact ⟨List.cons_ne_nil _ _, List.forall_mem_cons.mpr ⟨by decide, solid spelled⟩⟩

namespace Binary.Double

variable {x : Double} {n : ℤ}

/-- What the units of a number that is an integer are. -/
theorem units_of_value (same : x.value = n) :
    Format.double.units x.pattern.code = n.natAbs * 2 ^ Format.double.unitExponent ∧
      (if x.pattern.negative then -(n.natAbs : ℤ) else n.natAbs) = n := by
  have units : x.pattern.signedUnits .double = n * (2 ^ Format.double.unitExponent : ℕ) := by
    rw [value, Pattern.value, div_eq_iff (by positivity)] at same
    exact_mod_cast same
  have positive := Nat.two_pow_pos Format.double.unitExponent
  rw [Pattern.signedUnits] at units
  generalize 2 ^ Format.double.unitExponent = scale at *
  have magnitude := congrArg Int.natAbs units
  rw [Int.natAbs_mul, Int.natAbs_natCast] at magnitude
  have cast : (0 : ℤ) < scale := by exact_mod_cast positive
  split_ifs at units magnitude ⊢ with negative
  · have sign : n ≤ 0 := nonpos_of_mul_nonpos_left (by omega) cast
    exact ⟨by simpa using magnitude, by omega⟩
  · have sign : 0 ≤ n := nonneg_of_mul_nonneg_left (by omega) cast
    exact ⟨by simpa using magnitude, by omega⟩

/-- A number that is an integer has no fraction part. -/
theorem truncate_of_value (same : x.value = n) : x.isInteger ∧ x.truncate = n := by
  obtain ⟨units, signed⟩ := units_of_value same
  have positive := Nat.two_pow_pos Format.double.unitExponent
  rw [isInteger, truncate, units, Nat.mul_mod_left, Nat.mul_div_cancel _ positive]
  exact ⟨rfl, signed⟩

/-- A number without a fraction part is an integer. -/
theorem value_of_isInteger (whole : x.isInteger) : x.value = x.truncate := by
  rw [isInteger, decide_eq_true_eq] at whole
  have units := Nat.div_mul_cancel (Nat.dvd_of_mod_eq_zero whole)
  have scaled : x.pattern.signedUnits .double = x.truncate * 2 ^ Format.double.unitExponent := by
    rw [Pattern.signedUnits, truncate]
    generalize Format.double.units x.pattern.code / 2 ^ Format.double.unitExponent = magnitude at *
    rw [← units]
    push_cast
    split_ifs <;> ring
  rw [value, Pattern.value, scaled, div_eq_iff (by positivity)]
  push_cast
  ring

end Binary.Double

/-- Integers that fit 32 bits with a sign. -/
def IsInt32 (n : ℤ) : Prop := -2 ^ 31 ≤ n ∧ n ≤ 2 ^ 31 - 1

namespace AuthoredValue

variable {x : Double} {n : ℤ}

/-- An integer that fits is finite when it is rounded, and read as it is. -/
theorem integer_of_rounds (rounds : x.pattern.Rounds .double n) (fits : IsInt32 n) :
    x.isFinite ∧ integer x = .ok (Int32.ofInt n) := by
  obtain ⟨least, most⟩ := fits
  have represented : Pattern.Represented .double n :=
    Pattern.represented_of_eq n 0 0
      ⟨by decide, show n.natAbs ≤ 2 * 2 ^ 52 by omega, by decide, by decide⟩ rfl
  have between := rounds.between represented represented le_rfl le_rfl
  obtain ⟨whole, same⟩ := Double.truncate_of_value (le_antisymm between.le_high between.low_le)
  refine ⟨between.finite, ?_⟩
  rw [integer, whole, same, Bool.true_and, if_pos (decide_eq_true ⟨least, by omega⟩)]

/-- An integer that does not fit is refused when it is rounded. -/
theorem integer_of_not_isInt32 (rounds : x.pattern.Rounds .double n) (fitsNot : ¬ IsInt32 n) :
    integer x = .error (.notWholeComponent x) := by
  have represented (m : ℤ) (short : m.natAbs ≤ 2 ^ 53) : Pattern.Represented .double m :=
    Pattern.represented_of_eq m 0 0 ⟨by decide, short, by decide, by decide⟩ rfl
  rw [integer, if_neg]
  intro kept
  rw [Bool.and_eq_true, decide_eq_true_eq] at kept
  obtain ⟨whole, least, most⟩ := kept
  have value := Double.value_of_isInteger whole
  rcases (by unfold IsInt32 at fitsNot; omega : n ≤ -(2 ^ 31 + 1) ∨ 2 ^ 31 ≤ n) with small | large
  · have bound := rounds.neg.le_value (represented (2 ^ 31 + 1) (by decide))
      (by exact_mod_cast (by omega : (2 ^ 31 + 1 : ℤ) ≤ -n))
    rw [Pattern.value_neg, show x.pattern.value .double = x.value from rfl, value] at bound
    have passed : (2 ^ 31 + 1 : ℤ) ≤ -x.truncate := by exact_mod_cast bound
    omega
  · have bound := rounds.le_value (represented (2 ^ 31) (by decide))
      (by exact_mod_cast large)
    rw [show x.pattern.value .double = x.value from rfl, value] at bound
    have passed : (2 ^ 31 : ℤ) ≤ x.truncate := by exact_mod_cast bound
    omega

/-- How a list of integers is authored: as an array of JSON integers, a single one also by
itself, or in decimal as the words of a text. -/
inductive SpellsIntegers : (integers : List ℤ) → (value : Json.Value) → Prop
  | array (integers : List ℤ) :
      SpellsIntegers integers (.array (integers.map fun n => .number (.integer n)))
  | number (n : ℤ) : SpellsIntegers [n] (.number (.integer n))
  | text {integers : List ℤ} {found : List (List Char)} {text : List Char}
      (worded : Text.Worded found text)
      (spelled : List.Forall₂ Decimal.SpellsInteger integers found) :
      SpellsIntegers integers (.string (String.ofList text))

variable {integers : List ℤ} {value : Json.Value} {numbers : List Double}

/-- However integers are authored, they are read as numbers that they are rounded to. -/
theorem SpellsIntegers.exists_numbers? (spells : SpellsIntegers integers value) :
    ∃ numbers, numbers? value = some numbers ∧
      List.Forall₂ (fun n x => x.pattern.Rounds .double n) integers numbers := by
  cases spells with
  | array =>
      refine ⟨integers.map Double.ofInt, mapM_eq_some ?_, ?_⟩
      · rw [List.forall₂_map_left_iff, List.forall₂_map_right_iff, List.forall₂_same]
        exact fun n _ => rfl
      · rw [List.forall₂_map_right_iff, List.forall₂_same]
        exact fun n _ => Double.rounds_ofInt n
  | number n => exact ⟨[.ofInt n], rfl, .cons (Double.rounds_ofInt n) .nil⟩
  | @text _ found text worded spelled =>
      rw [numbers?, String.toList_ofList, worded.words_eq]
      clear worded
      induction spelled with
      | nil => exact ⟨[], rfl, .nil⟩
      | cons head _ ih =>
          obtain ⟨x, read, rounds⟩ := head.exists_double?
          obtain ⟨others, rest, rounded⟩ := ih
          refine ⟨x :: others, ?_, .cons rounds rounded⟩
          rw [List.mapM_cons, read, rest]
          rfl

/-- Numbers are components if they are finite and have the right count. -/
theorem components_of_numbers? {count : Nat} (read : numbers? value = some numbers)
    (finite : ∀ x ∈ numbers, x.isFinite) (length : numbers.length = count) :
    components count value = .ok numbers := by
  have all : numbers.all Double.isFinite = true := List.all_eq_true.mpr finite
  simp [components, read, all, length]

/-- As many integers as there are components are kept if they all fit. -/
theorem SpellsIntegers.integers_eq_ok {count : Nat} (spells : SpellsIntegers integers value)
    (length : integers.length = count) (fit : ∀ n ∈ integers, IsInt32 n) :
    AuthoredValue.integers count value =
      .ok (.ofList ((integers.map Int32.ofInt).map Int32.toUInt32)) := by
  obtain ⟨numbers, read, rounded⟩ := spells.exists_numbers?
  have kept : List.Forall₂ (fun n x => x.isFinite ∧ integer x = .ok (Int32.ofInt n))
      integers numbers := by
    have both := (List.forall₂_and_left _ _).mpr ⟨fit, rounded⟩
    exact both.imp fun n x ⟨fits, rounds⟩ => integer_of_rounds rounds fits
  have finite : ∀ x ∈ numbers, x.isFinite := by
    intro x member
    obtain ⟨n, -, finite, -⟩ := exists_of_forall₂ kept.flip member
    exact finite
  have converted : numbers.mapM integer = .ok (integers.map Int32.ofInt) := by
    rw [mapM_eq_ok_iff, List.forall₂_map_right_iff]
    exact kept.flip.imp fun x n both => both.2
  rw [AuthoredValue.integers,
    components_of_numbers? read finite (rounded.length_eq.symm.trans length)]
  change (do return Words.ofList ((← numbers.mapM integer).map Int32.toUInt32)) = _
  rw [converted]
  rfl

/-- Integers of another count, or not all of which fit, are refused. -/
theorem SpellsIntegers.integers_eq_error {count : Nat} (spells : SpellsIntegers integers value)
    (refused : ¬ (integers.length = count ∧ ∀ n ∈ integers, IsInt32 n)) :
    ∃ fault, AuthoredValue.integers count value = .error fault := by
  cases outcome : AuthoredValue.integers count value with
  | error fault => exact ⟨fault, rfl⟩
  | ok words =>
      obtain ⟨numbers, read, rounded⟩ := spells.exists_numbers?
      obtain ⟨found, components, rest⟩ := bind_eq_ok_iff.mp outcome
      obtain ⟨converted, converts, -⟩ := bind_eq_ok_iff.mp rest
      obtain ⟨-, length⟩ := components_eq_ok components
      obtain rfl : found = numbers := by
        rw [AuthoredValue.components, read] at components
        dsimp only at components
        split_ifs at components
        exact (Except.ok.inj components).symm
      refine absurd ⟨rounded.length_eq.trans length, fun n member => ?_⟩ refused
      by_contra fitsNot
      obtain ⟨x, listed, rounds⟩ := exists_of_forall₂ rounded member
      obtain ⟨kept, -, fine⟩ := exists_of_forall₂ (mapM_eq_ok_iff.mp converts) listed
      cases (integer_of_not_isInt32 rounds fitsNot).symm.trans fine

end AuthoredValue

/-- Values of a type are made up of integers. -/
def ValueType.IsInteger : ValueType → Prop
  | integer | integer2 | integer3 | integer4 => True
  | boolean | float | float2 | float3 | float4 | texture => False

namespace PropertyValue

/-- The integers that a value holds. -/
def integers : PropertyValue → List Int32
  | integer x => [x]
  | integer2 x y => [x, y]
  | integer3 x y z => [x, y, z]
  | integer4 x y z w => [x, y, z, w]
  | boolean _ | float _ | float2 _ _ | float3 _ _ _ | float4 _ _ _ _ | texture _ => []

/-- The integers of a value are the words that it was made of. -/
theorem integers_ofWords {type : ValueType} (isInteger : type.IsInteger) {values : List Int32}
    (length : values.length = type.componentCount) :
    (ofWords type (.ofList (values.map Int32.toUInt32))).integers = values := by
  cases type with
  | integer =>
      obtain ⟨x, rfl⟩ := List.length_eq_one_iff.mp length
      rfl
  | integer2 =>
      obtain ⟨x, y, rfl⟩ := List.length_eq_two.mp length
      rfl
  | integer3 =>
      obtain ⟨x, y, z, rfl⟩ := List.length_eq_three.mp length
      rfl
  | integer4 =>
      obtain ⟨x, rest, rfl⟩ := List.exists_cons_of_length_eq_add_one length
      obtain ⟨y, z, w, rfl⟩ := List.length_eq_three.mp (Nat.succ.inj length)
      rfl
  | _ => cases isInteger

end PropertyValue

namespace AuthoredValue

variable {type : ValueType} {value : Json.Value}

/-- For a type of integers, a value is read as integers. -/
theorem ofJson_of_isInteger (isInteger : type.IsInteger) :
    ofJson type value = (do
      return .plain (.ofWords type (← integers type.componentCount value))) := by
  cases type <;> first | rfl | cases isInteger

end AuthoredValue

namespace AssetContext

variable {σ : Type} {integers : List ℤ} {type : ValueType} {value : Json.Value}

/-- Integer properties are exact. The value of a property of an integer type is authored with a
list of integers: if there are as many as the type has components, and each fits 32 bits, the
value is of this type and holds them; otherwise reading fails with an invalid value of the
field. The asset context is not asked. -/
theorem propertyValue_integers (context : AssetContext σ) (state : σ) (field : String)
    (isInteger : type.IsInteger) (spells : AuthoredValue.SpellsIntegers integers value) :
    (integers.length = type.componentCount → (∀ n ∈ integers, -2 ^ 31 ≤ n ∧ n ≤ 2 ^ 31 - 1) →
      ∃ read, asked (context.propertyValue type field value) state = (.ok read, state) ∧
        read.type = type ∧ read.integers.map Int32.toInt = integers) ∧
    (¬ (integers.length = type.componentCount ∧ ∀ n ∈ integers, -2 ^ 31 ≤ n ∧ n ≤ 2 ^ 31 - 1) →
      ∃ fault, asked (context.propertyValue type field value) state =
        (.error (.invalid field fault), state)) := by
  constructor
  · intro length fit
    have read : AuthoredValue.ofJson type value =
        .ok (.plain (.ofWords type (.ofList ((integers.map Int32.ofInt).map Int32.toUInt32)))) := by
      rw [AuthoredValue.ofJson_of_isInteger isInteger, spells.integers_eq_ok length fit]
      rfl
    refine ⟨.ofWords type (.ofList ((integers.map Int32.ofInt).map Int32.toUInt32)), ?_,
      PropertyValue.type_ofWords .., ?_⟩
    · rw [propertyValue, read]
      rfl
    · rw [PropertyValue.integers_ofWords isInteger (by rwa [List.length_map]), List.map_map]
      refine List.map_congr_left (fun n member => ?_) |>.trans (List.map_id integers)
      obtain ⟨least, most⟩ := fit n member
      exact Int32.toInt_ofInt_of_le least (by omega)
  · intro refused
    obtain ⟨fault, failed⟩ := spells.integers_eq_error refused
    refine ⟨fault, ?_⟩
    rw [propertyValue, AuthoredValue.ofJson_of_isInteger isInteger, failed]
    rfl

/-- The least and the greatest integer that fit are kept; one more, as a word, is refused. -/
theorem propertyValue_integers_extremes :
    let context : AssetContext Unit :=
      ⟨fun reference => pure (.error ⟨reference⟩), fun _ => pure none⟩
    let extremes : Json.Value := .array
      [.number (.integer (-2147483648)), .number (.integer 2147483647)]
    let beyond : Json.Value := .string (String.ofList (toString (2147483648 : ℤ)).toList)
    (ValueType.integer2.IsInteger ∧
      AuthoredValue.SpellsIntegers [-2147483648, 2147483647] extremes ∧
      ∃ read, asked (context.propertyValue .integer2 "Range" extremes) () = (.ok read, ()) ∧
        read.type = .integer2 ∧ read.integers.map Int32.toInt = [-2147483648, 2147483647]) ∧
    ValueType.integer.IsInteger ∧ AuthoredValue.SpellsIntegers [2147483648] beyond ∧
      ∃ fault, asked (context.propertyValue .integer "Range" beyond) () =
        (.error (.invalid "Range" fault), ()) := by
  intro context extremes beyond
  have kept : AuthoredValue.SpellsIntegers [-2147483648, 2147483647] extremes :=
    .array [-2147483648, 2147483647]
  have printed := Decimal.spellsInteger_toString 2147483648
  have refused : AuthoredValue.SpellsIntegers [2147483648] beyond :=
    .text (.last printed.isWord) (.cons printed .nil)
  have two : ValueType.integer2.IsInteger := trivial
  have one : ValueType.integer.IsInteger := trivial
  exact ⟨⟨two, kept, (propertyValue_integers context () "Range" two kept).1 rfl (by decide)⟩,
    one, refused, (propertyValue_integers context () "Range" one refused).2 (by decide)⟩

end AssetContext

end SceneForge
