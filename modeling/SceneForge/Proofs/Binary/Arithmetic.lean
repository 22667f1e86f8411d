import SceneForge.Binary.Double
import SceneForge.Proofs.Binary.Value

/-!
# Arithmetic in single and double precision

What is known of the operations on patterns, for numbers in their two formats: the value of a
finite number, the order of values, and the exact results that the operations round.
-/

namespace SceneForge.Binary

namespace Single

variable {x y : Single} {p : Pattern} {exact low high : ℚ}

/-- The rational number that a finite number is. -/
def value (x : Single) : ℚ := x.pattern.value .single

theorem pattern_ofPattern (small : p.code < 2 ^ 31) : (ofPattern p).pattern = p := by
  obtain ⟨negative, code⟩ := p
  replace small : code < 2 ^ 31 := small
  have bits (n : Nat) (fits : n < 2 ^ 32) : (UInt32.ofNat n).toNat = n :=
    UInt32.toNat_ofNat_of_lt' fits
  rw [pattern, ofPattern]
  cases negative with
  | false =>
      simp only [Bool.false_eq_true, if_false, Nat.zero_add, bits code (by omega),
        Pattern.mk.injEq, decide_eq_false_iff_not]
      omega
  | true =>
      simp only [if_true, bits (2 ^ 31 + code) (by omega), Pattern.mk.injEq, decide_eq_true_eq]
      omega

theorem pattern_code_lt (x : Single) : x.pattern.code < 2 ^ 31 := Nat.mod_lt _ (by decide)

theorem rounds_ofPattern (rounds : p.Rounds .single exact) :
    (ofPattern p).pattern.Rounds .single exact := by
  have infinity : Format.single.infinityCode < 2 ^ 31 := by decide
  rwa [pattern_ofPattern (Nat.lt_of_le_of_lt rounds.code_le infinity)]

theorem rounds_add (first : x.isFinite) (second : y.isFinite) :
    (x + y).pattern.Rounds .single (x.value + y.value) :=
  rounds_ofPattern (Pattern.rounds_add first second)

theorem rounds_mul (first : x.isFinite) (second : y.isFinite) :
    (x * y).pattern.Rounds .single (x.value * y.value) :=
  rounds_ofPattern (Pattern.rounds_mul first second)

theorem rounds_div (first : x.isFinite) (second : y.isFinite) (nonzero : y.value ≠ 0) :
    (x / y).pattern.Rounds .single (x.value / y.value) :=
  rounds_ofPattern (Pattern.rounds_div first second nonzero)

theorem rounds_ofInt (n : ℤ) : (ofInt n).pattern.Rounds .single n := by
  have rounds := rounds_ofPattern (Pattern.rounds_round .single
    (n * (2 ^ Format.single.unitExponent : Nat)) Nat.one_pos false)
  have exact : ((n * (2 ^ Format.single.unitExponent : Nat) : ℤ) : ℚ) / (1 : ℕ) /
      2 ^ Format.single.unitExponent = n := by
    push_cast
    field_simp
  rwa [exact] at rounds

/-- Integers with few bits are exact. -/
theorem ofInt_exact {n : ℤ} (small : n.natAbs ≤ 2 ^ 24) : (ofInt n).isFinite ∧ (ofInt n).value = n := by
  have represented : Pattern.Represented .single n :=
    Pattern.represented_of_eq n 0 0 ⟨by decide, small, by decide, by decide⟩ rfl
  have between := (rounds_ofInt n).between represented represented le_rfl le_rfl
  exact ⟨between.finite, le_antisymm between.le_high between.low_le⟩

theorem isFinite_ofNat (n : Nat) (small : n ≤ 2 ^ 24) : (OfNat.ofNat n : Single).isFinite :=
  (ofInt_exact (n := n) small).1

theorem value_ofNat (n : Nat) (small : n ≤ 2 ^ 24) : (OfNat.ofNat n : Single).value = n :=
  (ofInt_exact (n := n) small).2

/-- The value of a number whose units are known. -/
theorem value_of_units {n : ℤ} {k : ℕ} (x : Single)
    (units : x.pattern.signedUnits .single * 2 ^ k = n * 2 ^ Format.single.unitExponent) :
    x.value = n / 2 ^ k :=
  Pattern.value_of_signedUnits units

theorem pattern_neg (x : Single) : (-x).pattern = x.pattern.neg :=
  pattern_ofPattern (pattern_code_lt x)

@[simp] theorem value_neg (x : Single) : (-x).value = -x.value := by
  rw [value, pattern_neg, Pattern.value_neg, value]

@[simp] theorem isFinite_neg (x : Single) : (-x).isFinite = x.isFinite := by
  rw [isFinite, pattern_neg, Pattern.isFinite_neg, isFinite]

/-- Bounds of a square root. -/
theorem between_sqrt (finite : x.isFinite) (positive : 0 < x.value)
    (below : Pattern.Represented .single low) (above : Pattern.Represented .single high)
    (low_nonneg : 0 ≤ low) (high_nonneg : 0 ≤ high) (low_le : low * low ≤ x.value)
    (le_high : x.value ≤ high * high) : x.sqrt.pattern.Between .single low high := by
  have between := Pattern.between_sqrt finite positive below above low_nonneg high_nonneg low_le le_high
  have infinity : Format.single.infinityCode < 2 ^ 31 := by decide
  have small := Nat.lt_trans (Pattern.isFinite_iff.mp between.finite) infinity
  rwa [sqrt, pattern_ofPattern small]

theorem le_iff (first : x.isFinite) (second : y.isFinite) : x.le y ↔ x.value ≤ y.value := by
  rw [value, value, Pattern.value_le_value_iff, le, Pattern.le, Pattern.isNaN_of_isFinite first,
    Pattern.isNaN_of_isFinite second]
  simp [Pattern.key]

theorem lt_iff (first : x.isFinite) (second : y.isFinite) : x.lt y ↔ x.value < y.value := by
  rw [value, value, Pattern.value_lt_value_iff, lt, Pattern.lt, Pattern.isNaN_of_isFinite first,
    Pattern.isNaN_of_isFinite second]
  simp [Pattern.key]

/-- Not negative, and not NaN. -/
structure Nonneg (x : Single) : Prop where
  negative : x.pattern.negative = false
  code_le : x.pattern.code ≤ Format.single.infinityCode

theorem Nonneg.pattern_eq (nonneg : x.Nonneg) : x.pattern = ⟨false, x.pattern.code⟩ := by
  rw [← nonneg.negative]

theorem nonneg_ofPattern {code : ℕ} (le : code ≤ Format.single.infinityCode) :
    (ofPattern ⟨false, code⟩).Nonneg ∧ (ofPattern ⟨false, code⟩).pattern.code = code := by
  have infinity : Format.single.infinityCode < 2 ^ 31 := by decide
  have pattern := pattern_ofPattern (p := ⟨false, code⟩) (Nat.lt_of_le_of_lt le infinity)
  exact ⟨⟨by rw [pattern], by rw [pattern]; exact le⟩, by rw [pattern]⟩

/-- A sum of numbers that are not negative is not less than these. -/
theorem Nonneg.add (first : x.Nonneg) (second : y.Nonneg) :
    (x + y).Nonneg ∧ x.pattern.code ≤ (x + y).pattern.code ∧
      y.pattern.code ≤ (x + y).pattern.code := by
  obtain ⟨sum, same, large, large', le⟩ := Pattern.add_nonneg first.code_le second.code_le
  rw [← first.pattern_eq, ← second.pattern_eq] at same
  change (ofPattern (.add .single x.pattern y.pattern)).Nonneg ∧
    _ ≤ (ofPattern (.add .single x.pattern y.pattern)).pattern.code ∧
    _ ≤ (ofPattern (.add .single x.pattern y.pattern)).pattern.code
  rw [same, (nonneg_ofPattern le).2]
  exact ⟨(nonneg_ofPattern le).1, large, large'⟩

theorem nonneg_mul_self (finite : x.isFinite) : (x * x).Nonneg := by
  obtain ⟨square, le, same⟩ := Pattern.mul_self_nonneg finite
  change (ofPattern (.mul .single x.pattern x.pattern)).Nonneg
  rw [same]
  exact (nonneg_ofPattern le).1

/-- Twice the number from which on magnitudes are rounded to infinity, in units. -/
theorem units_limit : Format.single.units (Format.single.infinityCode - 1) +
    Format.single.units Format.single.infinityCode =
      2 * (2 ^ 25 - 1) * 2 ^ 103 * 2 ^ Format.single.unitExponent := by
  decide +kernel

/-- A square is finite up to half a step above the greatest number. -/
theorem isFinite_mul_self_iff (finite : x.isFinite) :
    (x * x).isFinite ↔ x.value * x.value < 2 ^ 128 - 2 ^ 103 := by
  have computed : Pattern.mul .single x.pattern x.pattern =
      ⟨x.pattern.negative != x.pattern.negative, Format.single.roundCode
        (Format.single.units x.pattern.code * Format.single.units x.pattern.code)
        (2 ^ Format.single.unitExponent)⟩ := by
    simp [Pattern.mul, Pattern.isNaN_of_isFinite finite, Pattern.isInfinite_of_isFinite finite]
  have infinity : Format.single.infinityCode < 2 ^ 31 := by decide
  have small : (Pattern.mul .single x.pattern x.pattern).code < 2 ^ 31 := by
    rw [computed]
    exact Nat.lt_of_le_of_lt (Format.roundCode_le_infinityCode ..) infinity
  change Pattern.isFinite .single (ofPattern (.mul .single x.pattern x.pattern)).pattern ↔ _
  rw [pattern_ofPattern small, computed, Pattern.isFinite_iff,
    Format.roundCode_lt_infinityCode_iff (by decide) (Nat.two_pow_pos _), units_limit,
    ← abs_mul_abs_self, value, Pattern.abs_value, Pattern.value_eq, Pattern.factor_false, one_mul,
    div_mul_div_comm, div_lt_iff₀ (by positivity)]
  generalize Format.single.units x.pattern.code = units
  have cancel : (0 : ℚ) < 2 := by norm_num
  rw [← mul_lt_mul_iff_right₀ cancel, ← Nat.cast_lt (α := ℚ)]
  push_cast
  refine iff_of_eq (congrArg₂ (· < ·) ?_ ?_) <;> ring

theorem isZero_iff : x.isZero ↔ x.value = 0 := by
  rw [value, Pattern.value_eq_zero_iff, isZero, decide_eq_true_iff]

end Single

namespace Double

variable {x y : Double} {p : Pattern} {exact low high : ℚ}

/-- The rational number that a finite number is. -/
def value (x : Double) : ℚ := x.pattern.value .double

theorem pattern_ofPattern (small : p.code < 2 ^ 63) : (ofPattern p).pattern = p := by
  obtain ⟨negative, code⟩ := p
  replace small : code < 2 ^ 63 := small
  have bits (n : Nat) (fits : n < 2 ^ 64) : (UInt64.ofNat n).toNat = n :=
    UInt64.toNat_ofNat_of_lt' fits
  rw [pattern, ofPattern]
  cases negative with
  | false =>
      simp only [Bool.false_eq_true, if_false, Nat.zero_add, bits code (by omega),
        Pattern.mk.injEq, decide_eq_false_iff_not]
      omega
  | true =>
      simp only [if_true, bits (2 ^ 63 + code) (by omega), Pattern.mk.injEq, decide_eq_true_eq]
      omega

theorem pattern_code_lt (x : Double) : x.pattern.code < 2 ^ 63 := Nat.mod_lt _ (by decide)

theorem rounds_ofPattern (rounds : p.Rounds .double exact) :
    (ofPattern p).pattern.Rounds .double exact := by
  have infinity : Format.double.infinityCode < 2 ^ 63 := by decide
  rwa [pattern_ofPattern (Nat.lt_of_le_of_lt rounds.code_le infinity)]

theorem rounds_mul (first : x.isFinite) (second : y.isFinite) :
    (x * y).pattern.Rounds .double (x.value * y.value) :=
  rounds_ofPattern (Pattern.rounds_mul first second)

theorem rounds_fusedMulAdd (x y z : Double) :
    (fusedMulAdd x y z).pattern.Rounds .double (x.value * y.value + z.value) :=
  rounds_ofPattern (Pattern.rounds_fusedMulAdd .double x.pattern y.pattern z.pattern)

theorem rounds_ofInt (n : ℤ) : (ofInt n).pattern.Rounds .double n := by
  have rounds := rounds_ofPattern (Pattern.rounds_round .double
    (n * (2 ^ Format.double.unitExponent : Nat)) Nat.one_pos false)
  have exact : ((n * (2 ^ Format.double.unitExponent : Nat) : ℤ) : ℚ) / (1 : ℕ) /
      2 ^ Format.double.unitExponent = n := by
    push_cast
    field_simp
  rwa [exact] at rounds

/-- Integers with few bits are exact. -/
theorem ofInt_exact {n : ℤ} (small : n.natAbs ≤ 2 ^ 53) : (ofInt n).isFinite ∧ (ofInt n).value = n := by
  have represented : Pattern.Represented .double n :=
    Pattern.represented_of_eq n 0 0 ⟨by decide, small, by decide, by decide⟩ rfl
  have between := (rounds_ofInt n).between represented represented le_rfl le_rfl
  exact ⟨between.finite, le_antisymm between.le_high between.low_le⟩

/-- The value of a number whose units are known. -/
theorem value_of_units {n : ℤ} {k : ℕ} (x : Double)
    (units : x.pattern.signedUnits .double * 2 ^ k = n * 2 ^ Format.double.unitExponent) :
    x.value = n / 2 ^ k :=
  Pattern.value_of_signedUnits units

theorem pattern_neg (x : Double) : (-x).pattern = x.pattern.neg :=
  pattern_ofPattern (pattern_code_lt x)

@[simp] theorem value_neg (x : Double) : (-x).value = -x.value := by
  rw [value, pattern_neg, Pattern.value_neg, value]

@[simp] theorem isFinite_neg (x : Double) : (-x).isFinite = x.isFinite := by
  rw [isFinite, pattern_neg, Pattern.isFinite_neg, isFinite]

/-- Narrowing rounds. -/
theorem rounds_toSingle (finite : x.isFinite) : x.toSingle.pattern.Rounds .single x.value :=
  Single.rounds_ofPattern (Pattern.rounds_convert .double .single finite)

theorem toSingle_pattern (finite : x.isFinite) : x.toSingle.pattern = ⟨x.pattern.negative,
    Format.single.roundCode (Format.double.units x.pattern.code * 2 ^ Format.single.unitExponent)
      (2 ^ Format.double.unitExponent)⟩ := by
  have computed : Pattern.convert .double .single x.pattern = ⟨x.pattern.negative,
      Format.single.roundCode (Format.double.units x.pattern.code * 2 ^ Format.single.unitExponent)
        (2 ^ Format.double.unitExponent)⟩ := by
    simp [Pattern.convert, Pattern.isNaN_of_isFinite finite, Pattern.isInfinite_of_isFinite finite]
  have infinity : Format.single.infinityCode < 2 ^ 31 := by decide
  rw [toSingle, computed, Single.pattern_ofPattern]
  exact Nat.lt_of_le_of_lt (Format.roundCode_le_infinityCode ..) infinity

/-- Narrowing gives a finite number up to half a step above the greatest one. -/
theorem isFinite_toSingle_iff (finite : x.isFinite) :
    x.toSingle.isFinite ↔ |x.value| < 2 ^ 128 - 2 ^ 103 := by
  rw [Single.isFinite, toSingle_pattern finite, Pattern.isFinite_iff,
    Format.roundCode_lt_infinityCode_iff (by decide) (Nat.two_pow_pos _), Single.units_limit, value,
    Pattern.abs_value, Pattern.value_eq, Pattern.factor_false, one_mul, div_lt_iff₀ (by positivity)]
  generalize Format.double.units x.pattern.code = units
  have cancel : (0 : ℚ) < 2 * 2 ^ Format.single.unitExponent := by positivity
  rw [← mul_lt_mul_iff_right₀ cancel, ← Nat.cast_lt (α := ℚ)]
  push_cast
  refine iff_of_eq (congrArg₂ (· < ·) ?_ ?_) <;> ring

/-- A number is what a finite one is narrowed to: never NaN, but infinite if that one is too
large. -/
structure Narrows (x : Double) (y : Single) : Prop where
  eq_toSingle : y = x.toSingle
  isNaN_eq : y.pattern.isNaN .single = false
  isFinite_iff : y.isFinite ↔ |x.value| < 2 ^ 128 - 2 ^ 103

theorem narrows_toSingle (finite : x.isFinite) : x.Narrows x.toSingle where
  eq_toSingle := rfl
  isNaN_eq := decide_eq_false (Nat.not_lt.mpr (rounds_toSingle finite).code_le)
  isFinite_iff := isFinite_toSingle_iff finite

/-- Widening rounds, too, though to the same number. -/
theorem rounds_ofSingle {x : Single} (finite : x.isFinite) :
    (ofSingle x).pattern.Rounds .double x.value :=
  rounds_ofPattern (Pattern.rounds_convert .single .double finite)

end Double

end SceneForge.Binary
