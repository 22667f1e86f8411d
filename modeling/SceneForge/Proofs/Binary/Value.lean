import Mathlib.Data.Rat.Floor
import Mathlib.Tactic.FieldSimp
import Mathlib.Tactic.Linarith
import Mathlib.Tactic.Positivity
import SceneForge.Proofs.Binary.Rounding

/-!
# Values of patterns

The finite patterns of a format stand for rational numbers, in the order of their signed
codes. An operation rounds its exact result: no finite number lies between the exact result
and the rounded one. So whatever bounds the exact result and has a pattern bounds the rounded
result, which then is finite.
-/

namespace SceneForge.Binary

namespace Pattern

/-- The rational number that a finite pattern stands for. -/
def value (format : Format) (x : Pattern) : ℚ := x.signedUnits format / 2 ^ format.unitExponent

/-- The code with the sign. -/
def key (x : Pattern) : ℤ := if x.negative then -x.code else x.code

/-- The factor that a sign stands for. -/
def factor (negative : Bool) : ℚ := if negative then -1 else 1

/-- A pattern is an exact number rounded: not NaN, and no finite number is passed. -/
structure Rounds (format : Format) (exact : ℚ) (x : Pattern) : Prop where
  code_le : x.code ≤ format.infinityCode
  le_key : ∀ y : Pattern, y.isFinite format → y.value format ≤ exact → y.key ≤ x.key
  key_le : ∀ y : Pattern, y.isFinite format → exact ≤ y.value format → x.key ≤ y.key

/-- A finite number between two bounds. -/
structure Between (format : Format) (low high : ℚ) (x : Pattern) : Prop where
  finite : x.isFinite format
  low_le : low ≤ x.value format
  le_high : x.value format ≤ high

/-- A rational number has a finite pattern. -/
def Represented (format : Format) (q : ℚ) : Prop :=
  ∃ x : Pattern, x.isFinite format ∧ x.value format = q

variable {format : Format} {x y z : Pattern} {exact low high : ℚ}

theorem isFinite_iff : x.isFinite format ↔ x.code < format.infinityCode :=
  decide_eq_true_iff

@[simp] theorem key_false (code : Nat) : key ⟨false, code⟩ = code := rfl

@[simp] theorem key_true (code : Nat) : key ⟨true, code⟩ = -code := rfl

@[simp] theorem factor_false : factor false = 1 := rfl

@[simp] theorem factor_true : factor true = -1 := rfl

theorem value_eq (format : Format) (negative : Bool) (code : Nat) :
    value format ⟨negative, code⟩ =
      factor negative * (format.units code / 2 ^ format.unitExponent) := by
  cases negative with
  | false => rw [factor_false, one_mul]; rfl
  | true => rw [value, signedUnits, factor_true, if_pos rfl]; push_cast; ring

@[simp] theorem value_zero (format : Format) (negative : Bool) : value format ⟨negative, 0⟩ = 0 := by
  simp [value_eq]

/-- The magnitude of a number is that of its code. -/
theorem abs_value (format : Format) (x : Pattern) : |x.value format| = value format ⟨false, x.code⟩ := by
  have nonneg : (0 : ℚ) ≤ format.units x.code / 2 ^ format.unitExponent := by positivity
  obtain ⟨negative, code⟩ := x
  rw [value_eq, value_eq, factor_false, one_mul, abs_mul, abs_of_nonneg nonneg]
  cases negative <;> simp

theorem signedUnits_le_iff (format : Format) : x.signedUnits format ≤ y.signedUnits format ↔ x.key ≤ y.key := by
  have order : format.units x.code ≤ format.units y.code ↔ x.code ≤ y.code :=
    format.units_le_units_iff
  have reverse : format.units y.code ≤ format.units x.code ↔ y.code ≤ x.code :=
    format.units_le_units_iff
  have positive (code : Nat) : 0 < format.units code ↔ 0 < code := by
    have order : format.units 0 < format.units code ↔ 0 < code := format.units_lt_units_iff
    rwa [Format.units_zero] at order
  have first := positive x.code
  have second := positive y.code
  rw [signedUnits, signedUnits, key, key]
  split <;> split <;> omega

/-- Values are ordered as signed codes are. -/
theorem value_le_value_iff : x.value format ≤ y.value format ↔ x.key ≤ y.key := by
  rw [← signedUnits_le_iff format, value, value,
    div_le_div_iff_of_pos_right (by positivity), Int.cast_le]

theorem value_lt_value_iff : x.value format < y.value format ↔ x.key < y.key := by
  rw [← not_le, value_le_value_iff, not_le]

theorem isFinite_iff_key : x.isFinite format ↔ |x.key| < format.infinityCode := by
  rw [isFinite_iff, key]
  split <;> simp

@[simp] theorem value_neg (format : Format) (x : Pattern) : x.neg.value format = -x.value format := by
  rw [value, value, signedUnits, signedUnits, neg]
  cases x.negative <;> simp [neg_div]

@[simp] theorem key_neg (x : Pattern) : x.neg.key = -x.key := by
  rw [key, key, neg]
  cases x.negative <;> simp

@[simp] theorem isFinite_neg (format : Format) (x : Pattern) :
    x.neg.isFinite format = x.isFinite format := rfl

theorem Rounds.neg (rounds : x.Rounds format exact) : x.neg.Rounds format (-exact) where
  code_le := rounds.code_le
  le_key y finite le := by
    have := rounds.key_le y.neg finite (by rw [value_neg]; linarith)
    rw [key_neg] at *
    omega
  key_le y finite le := by
    have := rounds.le_key y.neg finite (by rw [value_neg]; linarith)
    rw [key_neg] at *
    omega

/-- Whatever bounds an exact number and has a pattern bounds the number rounded. -/
theorem Rounds.between (rounds : x.Rounds format exact) (below : Represented format low)
    (above : Represented format high)
    (low_le : low ≤ exact) (le_high : exact ≤ high) : x.Between format low high := by
  obtain ⟨y, lowFinite, rfl⟩ := below
  obtain ⟨z, highFinite, rfl⟩ := above
  have lower := rounds.le_key y lowFinite low_le
  have upper := rounds.key_le z highFinite le_high
  refine ⟨?_, value_le_value_iff.mpr lower, value_le_value_iff.mpr upper⟩
  rw [isFinite_iff_key, abs_lt] at *
  omega

theorem Represented.neg {q : ℚ} (represented : Represented format q) : Represented format (-q) := by
  obtain ⟨x, finite, rfl⟩ := represented
  exact ⟨x.neg, finite, value_neg format x⟩

/-- A lower bound stays one, even if rounding goes to infinity, whose code has a value, too. -/
theorem Rounds.le_value (rounds : x.Rounds format exact) (below : Represented format low)
    (low_le : low ≤ exact) : low ≤ x.value format := by
  obtain ⟨y, finite, rfl⟩ := below
  exact value_le_value_iff.mpr (rounds.le_key y finite low_le)

/-- A bound of a magnitude bounds the magnitude rounded. -/
theorem Rounds.magnitude_le (rounds : x.Rounds format exact) (above : Represented format high)
    (bound : |exact| ≤ high) : x.isFinite format ∧ |x.value format| ≤ high := by
  obtain ⟨lower, upper⟩ := abs_le.mp bound
  have between := rounds.between above.neg above lower upper
  exact ⟨between.finite, abs_le.mpr ⟨between.low_le, between.le_high⟩⟩

theorem rounds_roundCode_false (format : Format) (numerator : Nat) {denominator : Nat}
    (positive : 0 < denominator) :
    Rounds format (numerator / denominator / 2 ^ format.unitExponent)
      ⟨false, format.roundCode numerator denominator⟩ where
  code_le := format.roundCode_le_infinityCode numerator denominator
  le_key := by
    rintro ⟨negative, code⟩ finite le
    cases negative with
    | true =>
        rw [key_true, key_false]
        omega
    | false =>
        rw [value_eq, factor_false, one_mul, div_le_div_iff_of_pos_right (by positivity),
          le_div_iff₀ (by positivity)] at le
        rw [key_false, key_false, Int.ofNat_le]
        exact Format.le_roundCode positive (Nat.le_of_lt (isFinite_iff.mp finite))
          (by exact_mod_cast le)
  key_le := by
    rintro ⟨negative, code⟩ finite le
    -- What is not above the exact number is no negative number, unless both are zero.
    have bound : (numerator : ℚ) ≤ factor negative * format.units code * denominator := by
      rw [value_eq, ← mul_div_assoc, div_le_div_iff_of_pos_right (by positivity),
        div_le_iff₀ (by positivity)] at le
      exact le
    cases negative with
    | false =>
        rw [factor_false, one_mul] at bound
        rw [key_false, key_false, Int.ofNat_le]
        exact Format.roundCode_le positive (by exact_mod_cast bound)
    | true =>
        have sum : format.units code * denominator + numerator ≤ 0 := by
          rw [factor_true, neg_one_mul, neg_mul] at bound
          exact_mod_cast (by linarith : (format.units code * denominator + numerator : ℚ) ≤ 0)
        have none : format.units code = 0 := by
          by_contra some
          have := Nat.mul_pos (Nat.pos_of_ne_zero some) positive
          omega
        have code_le : code ≤ 0 := by
          rw [← format.units_le_units_iff, none]
          exact Nat.zero_le _
        have round_le : format.roundCode numerator denominator ≤ 0 :=
          Format.roundCode_le positive (by omega)
        rw [key_false, key_true]
        omega

/-- A quotient of units, rounded, with a sign. -/
theorem rounds_roundCode (format : Format) (negative : Bool) (numerator : Nat) {denominator : Nat}
    (positive : 0 < denominator) :
    Rounds format (factor negative * (numerator / denominator / 2 ^ format.unitExponent))
      ⟨negative, format.roundCode numerator denominator⟩ := by
  have rounds := rounds_roundCode_false format numerator positive
  cases negative with
  | false => rwa [factor_false, one_mul]
  | true =>
      rw [factor_true, neg_one_mul]
      exact rounds.neg

theorem factor_mul_natAbs (n : ℤ) : factor (decide (n < 0)) * n.natAbs = n := by
  rw [Nat.cast_natAbs, Int.cast_abs]
  by_cases negative : n < 0
  · have cast : (n : ℚ) < 0 := by exact_mod_cast negative
    simp [negative, abs_of_neg cast]
  · have cast : (0 : ℚ) ≤ n := by exact_mod_cast not_lt.mp negative
    simp [negative, abs_of_nonneg cast]

theorem rounds_round (format : Format) (numerator : ℤ) {denominator : Nat} (positive : 0 < denominator)
    (zeroNegative : Bool) :
    Rounds format (numerator / denominator / 2 ^ format.unitExponent)
      (round format numerator denominator zeroNegative) := by
  rw [round]
  split_ifs with zero
  · rw [zero, Int.cast_zero, zero_div, zero_div, ← value_zero format zeroNegative]
    exact ⟨Nat.zero_le _, fun _ _ le => value_le_value_iff.mp le,
      fun _ _ le => value_le_value_iff.mp le⟩
  · have rounds := rounds_roundCode format (decide (numerator < 0)) numerator.natAbs positive
    have exact : (numerator / denominator / 2 ^ format.unitExponent : ℚ) =
        factor (decide (numerator < 0)) *
          (numerator.natAbs / denominator / 2 ^ format.unitExponent) := by
      rw [← factor_mul_natAbs numerator]
      ring
    rwa [exact]

theorem isNaN_of_isFinite (finite : x.isFinite format) : x.isNaN format = false := by
  have := isFinite_iff.mp finite
  rw [isNaN, decide_eq_false_iff_not]
  omega

theorem isInfinite_of_isFinite (finite : x.isFinite format) : x.isInfinite format = false := by
  have := isFinite_iff.mp finite
  rw [isInfinite, decide_eq_false_iff_not]
  omega

theorem factor_bne (one other : Bool) : factor (one != other) = factor one * factor other := by
  cases one <;> cases other <;> simp

/-- Sums of finite numbers are rounded. -/
theorem rounds_add (first : x.isFinite format) (second : y.isFinite format) :
    Rounds format (x.value format + y.value format) (add format x y) := by
  have rounds := rounds_round format (x.signedUnits format + y.signedUnits format) Nat.one_pos
    (x.negative && y.negative)
  have exact : x.value format + y.value format =
      ((x.signedUnits format + y.signedUnits format : ℤ) : ℚ) / (1 : ℕ) / 2 ^ format.unitExponent := by
    rw [value, value]
    push_cast
    ring
  have computed : add format x y =
      round format (x.signedUnits format + y.signedUnits format) 1 (x.negative && y.negative) := by
    simp [add, isNaN_of_isFinite first, isNaN_of_isFinite second, isInfinite_of_isFinite first,
      isInfinite_of_isFinite second]
  rwa [exact, computed]

/-- Products of finite numbers are rounded. -/
theorem rounds_mul (first : x.isFinite format) (second : y.isFinite format) :
    Rounds format (x.value format * y.value format) (mul format x y) := by
  have rounds := rounds_roundCode format (x.negative != y.negative)
    (format.units x.code * format.units y.code) (Nat.two_pow_pos format.unitExponent)
  have exact : x.value format * y.value format = factor (x.negative != y.negative) *
      ((format.units x.code * format.units y.code : ℕ) / (2 ^ format.unitExponent : ℕ) /
        2 ^ format.unitExponent) := by
    obtain ⟨negative, code⟩ := x
    obtain ⟨negative', code'⟩ := y
    rw [value_eq, value_eq, factor_bne]
    push_cast
    ring
  have computed : mul format x y = ⟨x.negative != y.negative,
      format.roundCode (format.units x.code * format.units y.code) (2 ^ format.unitExponent)⟩ := by
    simp [mul, isNaN_of_isFinite first, isNaN_of_isFinite second, isInfinite_of_isFinite first,
      isInfinite_of_isFinite second]
  rwa [exact, computed]

theorem value_eq_zero_iff : x.value format = 0 ↔ x.code = 0 := by
  obtain ⟨negative, code⟩ := x
  rw [← value_zero format negative, le_antisymm_iff, value_le_value_iff, value_le_value_iff]
  cases negative <;> simp

/-- Quotients of finite numbers are rounded unless the divisor is zero. -/
theorem rounds_div (first : x.isFinite format) (second : y.isFinite format)
    (nonzero : y.value format ≠ 0) :
    Rounds format (x.value format / y.value format) (div format x y) := by
  have code : y.code ≠ 0 := mt value_eq_zero_iff.mpr nonzero
  have positive : 0 < format.units y.code := by
    simpa using format.units_lt_units_iff.mpr (Nat.pos_of_ne_zero code)
  have rounds := rounds_roundCode format (x.negative != y.negative)
    (format.units x.code * 2 ^ format.unitExponent) positive
  have exact : x.value format / y.value format = factor (x.negative != y.negative) *
      ((format.units x.code * 2 ^ format.unitExponent : ℕ) / format.units y.code /
        2 ^ format.unitExponent) := by
    obtain ⟨negative, code⟩ := x
    obtain ⟨negative', code'⟩ := y
    rw [value_eq, value_eq, factor_bne]
    push_cast
    have : (format.units code' : ℚ) ≠ 0 := by exact_mod_cast Nat.ne_of_gt positive
    cases negative' <;> simp <;> field_simp
  have computed : div format x y = ⟨x.negative != y.negative,
      format.roundCode (format.units x.code * 2 ^ format.unitExponent) (format.units y.code)⟩ := by
    simp [div, isNaN_of_isFinite first, isNaN_of_isFinite second, isInfinite_of_isFinite first,
      isInfinite_of_isFinite second, code]
  rwa [exact, computed]

/-- Fused operations round once. -/
theorem rounds_fusedMulAdd (format : Format) (x y z : Pattern) :
    Rounds format (x.value format * y.value format + z.value format) (fusedMulAdd format x y z) := by
  have rounds := rounds_round format (x.signedUnits format * y.signedUnits format +
    z.signedUnits format * ((2 ^ format.unitExponent : ℕ) : ℤ)) (Nat.two_pow_pos format.unitExponent)
    ((x.negative != y.negative) && z.negative)
  have exact : x.value format * y.value format + z.value format =
      ((x.signedUnits format * y.signedUnits format +
        z.signedUnits format * ((2 ^ format.unitExponent : ℕ) : ℤ) : ℤ) : ℚ) /
        (2 ^ format.unitExponent : ℕ) / 2 ^ format.unitExponent := by
    rw [value, value, value]
    push_cast
    field_simp
  rwa [exact]

/-- A finite number is rounded to another format. -/
theorem rounds_convert (source target : Format) (finite : x.isFinite source) :
    Rounds target (x.value source) (convert source target x) := by
  have rounds := rounds_roundCode target x.negative (source.units x.code * 2 ^ target.unitExponent)
    (Nat.two_pow_pos source.unitExponent)
  have exact : x.value source = factor x.negative *
      ((source.units x.code * 2 ^ target.unitExponent : ℕ) / (2 ^ source.unitExponent : ℕ) /
        2 ^ target.unitExponent) := by
    obtain ⟨negative, code⟩ := x
    rw [value_eq]
    push_cast
    field_simp
  have computed : convert source target x = ⟨x.negative, target.roundCode
      (source.units x.code * 2 ^ target.unitExponent) (2 ^ source.unitExponent)⟩ := by
    simp [convert, isNaN_of_isFinite finite, isInfinite_of_isFinite finite]
  rwa [exact, computed]

theorem value_of_nonneg (nonneg : 0 ≤ x.value format) :
    x.value format = format.units x.code / 2 ^ format.unitExponent ∧ x.key = x.code := by
  obtain ⟨negative, code⟩ := x
  cases negative with
  | false => exact ⟨by rw [value_eq, factor_false, one_mul], rfl⟩
  | true =>
      rw [← value_zero format false, value_le_value_iff, key_true, key_false] at nonneg
      obtain rfl : code = 0 := by omega
      simp

/-- The square root of a positive number is rounded: no finite number is passed. -/
theorem rounds_sqrt (finite : x.isFinite format) (positive : 0 < x.value format) :
    (sqrt format x).code ≤ format.infinityCode ∧
      (∀ y : Pattern, y.isFinite format → 0 ≤ y.value format →
        y.value format * y.value format ≤ x.value format → y.key ≤ (sqrt format x).key) ∧
      ∀ y : Pattern, y.isFinite format → 0 ≤ y.value format →
        x.value format ≤ y.value format * y.value format → (sqrt format x).key ≤ y.key := by
  have nonzero : x.code ≠ 0 := mt value_eq_zero_iff.mpr (ne_of_gt positive)
  have nonnegative : x.negative = false := by
    have key := (value_of_nonneg (le_of_lt positive)).2
    rw [Pattern.key] at key
    cases negative : x.negative with
    | false => rfl
    | true =>
        rw [negative, if_pos rfl] at key
        omega
  have computed : sqrt format x =
      ⟨false, format.roundRootCode (format.units x.code * 2 ^ format.unitExponent)⟩ := by
    simp [sqrt, isNaN_of_isFinite finite, isInfinite_of_isFinite finite, nonzero, nonnegative]
  have exact := (value_of_nonneg (le_of_lt positive)).1
  rw [computed, key_false]
  refine ⟨Nat.min_le_right _ _, fun y bounded nonneg le => ?_, fun y bounded nonneg le => ?_⟩
  · obtain ⟨value, key⟩ := value_of_nonneg nonneg
    rw [value, exact, div_mul_div_comm, div_le_div_iff₀ (by positivity) (by positivity),
      ← mul_assoc, mul_le_mul_iff_left₀ (by positivity)] at le
    rw [key, Int.ofNat_le]
    exact Format.le_roundRootCode (Nat.le_of_lt (isFinite_iff.mp bounded)) (by exact_mod_cast le)
  · obtain ⟨value, key⟩ := value_of_nonneg nonneg
    rw [value, exact, div_mul_div_comm, div_le_div_iff₀ (by positivity) (by positivity),
      ← mul_assoc, mul_le_mul_iff_left₀ (by positivity)] at le
    rw [key, Int.ofNat_le]
    exact Format.roundRootCode_le (by exact_mod_cast le)

/-- Bounds of a square root. -/
theorem between_sqrt (finite : x.isFinite format) (positive : 0 < x.value format)
    (below : Represented format low) (above : Represented format high) (low_nonneg : 0 ≤ low)
    (high_nonneg : 0 ≤ high) (low_le : low * low ≤ x.value format)
    (le_high : x.value format ≤ high * high) : (sqrt format x).Between format low high := by
  obtain ⟨y, lowFinite, rfl⟩ := below
  obtain ⟨z, highFinite, rfl⟩ := above
  obtain ⟨-, lower, upper⟩ := rounds_sqrt finite positive
  have lower := lower y lowFinite low_nonneg low_le
  have upper := upper z highFinite high_nonneg le_high
  refine ⟨?_, value_le_value_iff.mpr lower, value_le_value_iff.mpr upper⟩
  rw [isFinite_iff_key, abs_lt] at *
  omega

/-- The value of a pattern whose units are known. -/
theorem value_of_signedUnits {n : ℤ} {k : ℕ}
    (units : x.signedUnits format * 2 ^ k = n * 2 ^ format.unitExponent) :
    x.value format = n / 2 ^ k := by
  rw [value, div_eq_div_iff (by positivity) (by positivity)]
  exact_mod_cast units

section Nonnegative

variable {m n : ℕ}

theorem negative_round_natCast (format : Format) (numerator denominator : ℕ) :
    (round format numerator denominator false).negative = false := by
  rw [round]
  split
  · rfl
  · exact decide_eq_false (Int.not_lt.mpr (Int.natCast_nonneg numerator))

/-- Sums of numbers that are not negative, infinite ones included, are not less than these. -/
theorem add_nonneg (first : m ≤ format.infinityCode) (second : n ≤ format.infinityCode) :
    ∃ sum, add format ⟨false, m⟩ ⟨false, n⟩ = ⟨false, sum⟩ ∧ m ≤ sum ∧ n ≤ sum ∧
      sum ≤ format.infinityCode := by
  have numbers : isNaN format ⟨false, m⟩ = false ∧ isNaN format ⟨false, n⟩ = false :=
    ⟨decide_eq_false (Nat.not_lt.mpr first), decide_eq_false (Nat.not_lt.mpr second)⟩
  have infinite : isInfinite format ⟨false, format.infinityCode⟩ = true := decide_eq_true rfl
  rcases Nat.lt_or_eq_of_le first with less | rfl
  · have finite : isInfinite format ⟨false, m⟩ = false := decide_eq_false (Nat.ne_of_lt less)
    rcases Nat.lt_or_eq_of_le second with less' | rfl
    · have rounds := rounds_add (isFinite_iff.mpr less : isFinite format ⟨false, m⟩)
        (isFinite_iff.mpr less' : isFinite format ⟨false, n⟩)
      have computed : add format ⟨false, m⟩ ⟨false, n⟩ =
          round format (format.units m + format.units n : ℕ) 1 false := by
        have finite' : isInfinite format ⟨false, n⟩ = false := decide_eq_false (Nat.ne_of_lt less')
        simp [add, numbers, finite, finite', signedUnits]
      have sign : (add format ⟨false, m⟩ ⟨false, n⟩).negative = false := by
        rw [computed, negative_round_natCast]
      generalize add format ⟨false, m⟩ ⟨false, n⟩ = total at rounds sign ⊢
      obtain ⟨negative, sum⟩ := total
      obtain rfl : negative = false := sign
      have nonneg (code : ℕ) : 0 ≤ value format ⟨false, code⟩ := by
        rw [← value_zero format false, value_le_value_iff, key_false, key_false]
        omega
      have large := rounds.le_key ⟨false, m⟩ (isFinite_iff.mpr less) (by linarith [nonneg n])
      have large' := rounds.le_key ⟨false, n⟩ (isFinite_iff.mpr less') (by linarith [nonneg m])
      rw [key_false, key_false, Int.ofNat_le] at large large'
      exact ⟨sum, rfl, large, large', rounds.code_le⟩
    · exact ⟨format.infinityCode, by simp [add, numbers, finite, infinite], first, Nat.le_refl _,
        Nat.le_refl _⟩
  · exact ⟨format.infinityCode, by simp [add, numbers, infinite], Nat.le_refl _, second,
      Nat.le_refl _⟩

/-- The square of a number is not negative. -/
theorem mul_self_nonneg {x : Pattern} (finite : x.isFinite format) :
    ∃ square ≤ format.infinityCode, mul format x x = ⟨false, square⟩ := by
  refine ⟨_, (rounds_mul finite finite).code_le, ?_⟩
  have sign : (mul format x x).negative = false := by
    simp [mul, isNaN_of_isFinite finite, isInfinite_of_isFinite finite]
  rw [← sign]

end Nonnegative

section Represented

variable {q : ℚ} (n : ℤ) (j k : ℕ)

/-- A number with a short enough significand has a pattern if its exponent is in the format's
range. -/
theorem represented_of_eq
    (fits : 2 ≤ format.exponentBits ∧ n.natAbs ≤ 2 * 2 ^ format.fractionBits ∧
      k ≤ format.unitExponent ∧ format.unitExponent - k + j < 2 ^ format.exponentBits - 3)
    (same : q * 2 ^ k = n * 2 ^ j) : Represented format q := by
  obtain ⟨wide, short, fine, inRange⟩ := fits
  obtain ⟨code, units⟩ := format.exists_units_eq n.natAbs (format.unitExponent - k + j) short
  refine ⟨⟨decide (n < 0), code⟩, isFinite_iff.mpr ?_, ?_⟩
  · rw [← format.units_lt_units_iff, units, Format.units_infinityCode wide]
    exact Nat.lt_of_le_of_lt (Nat.mul_le_mul_right _ short) (Nat.mul_lt_mul_of_pos_left
      (Nat.pow_lt_pow_right (by decide) inRange) (by positivity))
  · have split : (2 : ℚ) ^ format.unitExponent = 2 ^ (format.unitExponent - k) * 2 ^ k := by
      rw [← pow_add, Nat.sub_add_cancel fine]
    have magnitude := factor_mul_natAbs n
    rw [value_eq, units, Nat.cast_mul, Nat.cast_pow, pow_add, split, ← mul_div_assoc,
      ← mul_assoc, magnitude, div_eq_iff (by positivity)]
    rw [mul_left_comm, Nat.cast_ofNat, ← same]
    ring

end Represented

/-- An operation whose exact result is not large errs by less than a step of a fixed grid. -/
theorem Rounds.near (rounds : x.Rounds format exact) (bound k : ℕ)
    (fits : 2 ≤ format.exponentBits ∧ bound * 2 ^ k ≤ 2 * 2 ^ format.fractionBits ∧
      k ≤ format.unitExponent ∧ format.unitExponent - k < 2 ^ format.exponentBits - 3)
    (small : |exact| ≤ bound) :
    x.isFinite format ∧ |x.value format - exact| ≤ 1 / 2 ^ k := by
  obtain ⟨wide, short, fine, inRange⟩ := fits
  have step : (0 : ℚ) < 2 ^ k := by positivity
  have scaled : |exact * 2 ^ k| ≤ (bound * 2 ^ k : ℕ) := by
    rw [abs_mul, abs_of_pos step]
    push_cast
    exact mul_le_mul_of_nonneg_right small (le_of_lt step)
  obtain ⟨least, most⟩ := abs_le.mp scaled
  have floor_le : (⌊exact * 2 ^ k⌋ : ℚ) ≤ exact * 2 ^ k := Int.floor_le _
  have le_ceil : exact * 2 ^ k ≤ (⌈exact * 2 ^ k⌉ : ℚ) := Int.le_ceil _
  have grid (n : ℤ) (least : -((bound * 2 ^ k : ℕ) : ℤ) ≤ n) (most : n ≤ (bound * 2 ^ k : ℕ)) :
      Represented format (n / 2 ^ k) :=
    represented_of_eq n 0 k ⟨wide, by omega, fine, by omega⟩ (by field_simp)
  have below := grid ⌊exact * 2 ^ k⌋ (Int.le_floor.mpr (by push_cast at least ⊢; linarith))
    (by exact_mod_cast le_trans floor_le most)
  have above := grid ⌈exact * 2 ^ k⌉ (by exact_mod_cast le_trans least le_ceil)
    (Int.ceil_le.mpr (by exact_mod_cast most))
  have lower := (div_le_iff₀ step).mpr floor_le
  have upper := (le_div_iff₀ step).mpr le_ceil
  have between := rounds.between below above lower upper
  have width : (⌈exact * 2 ^ k⌉ : ℚ) / 2 ^ k ≤ ⌊exact * 2 ^ k⌋ / 2 ^ k + 1 / 2 ^ k := by
    rw [← add_div, div_le_div_iff_of_pos_right step]
    exact_mod_cast Int.ceil_le_floor_add_one _
  refine ⟨between.finite, abs_le.mpr ⟨?_, ?_⟩⟩
  · linarith [between.low_le]
  · linarith [between.le_high]

end Pattern

end SceneForge.Binary
