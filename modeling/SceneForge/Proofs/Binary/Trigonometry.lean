import Mathlib.Algebra.Order.Floor.Semifield
import SceneForge.Binary.Trigonometry
import SceneForge.Proofs.Binary.Arithmetic

/-!
# Bounds of sine and cosine

How large the computed sines and cosines of finite angles can be, and that of a sine and the
cosine of the same angle one is not small: one of both is the cosine polynomial. The
reduction of an angle is shown to be bounded only, not to be right; the polynomials are
bounded for every argument that it may give.
-/

namespace SceneForge.Binary

namespace Double

variable {x y z : Double}

/-- A finite number that is not larger than a bound. -/
structure Within (bound : ℚ) (x : Double) : Prop where
  finite : x.isFinite
  bound : |x.value| ≤ bound

variable {a b c d : ℚ}

theorem Within.mono (within : x.Within a) (le : a ≤ b) : x.Within b :=
  ⟨within.finite, le_trans within.bound le⟩

/-- A number whose units are known is as large as these. -/
theorem within_of_units {n : ℤ} {k : ℕ} (x : Double) (finite : x.isFinite)
    (units : x.pattern.signedUnits .double * 2 ^ k = n * 2 ^ Format.double.unitExponent)
    (le : |(n / 2 ^ k : ℚ)| ≤ a) : x.Within a :=
  ⟨finite, by rwa [x.value_of_units units]⟩

theorem Within.neg (within : x.Within a) : (-x).Within a :=
  ⟨by rw [isFinite_neg]; exact within.finite, by rw [value_neg, abs_neg]; exact within.bound⟩

theorem abs_mul_le {p q : ℚ} (first : |p| ≤ a) (second : |q| ≤ b) : |p * q| ≤ a * b := by
  rw [abs_mul]
  exact mul_le_mul first second (abs_nonneg q) (le_trans (abs_nonneg p) first)

/-- Among numbers that are not large, products err by little. -/
theorem near_mul (first : x.isFinite) (second : y.isFinite) (small : |x.value * y.value| ≤ 4) :
    (x * y).isFinite ∧ |(x * y).value - x.value * y.value| ≤ 1 / 2 ^ 40 :=
  (rounds_mul first second).near 4 40 ⟨by decide, by decide, by decide, by decide⟩
    (by exact_mod_cast small)

/-- Among numbers that are not large, fused operations err by little. -/
theorem near_fusedMulAdd (small : |x.value * y.value + z.value| ≤ 4) :
    (fusedMulAdd x y z).isFinite ∧
      |(fusedMulAdd x y z).value - (x.value * y.value + z.value)| ≤ 1 / 2 ^ 40 :=
  (rounds_fusedMulAdd x y z).near 4 40 ⟨by decide, by decide, by decide, by decide⟩
    (by exact_mod_cast small)

theorem Within.mul (first : x.Within a) (second : y.Within b) (small : a * b ≤ 4) :
    (x * y).Within (a * b + 1 / 2 ^ 40) := by
  have product := abs_mul_le first.bound second.bound
  obtain ⟨finite, error⟩ := near_mul first.finite second.finite (le_trans product small)
  refine ⟨finite, ?_⟩
  have := abs_sub_abs_le_abs_sub (x * y).value (x.value * y.value)
  linarith

/-- A fused operation with a small product stays near its summand. -/
theorem Within.near_summand (first : x.Within a) (second : y.Within b) (third : z.Within c)
    (small : a * b + c ≤ 4) :
    (Double.fusedMulAdd x y z).isFinite ∧
      |(Double.fusedMulAdd x y z).value - z.value| ≤ a * b + 1 / 2 ^ 40 := by
  have product := abs_mul_le first.bound second.bound
  have sum := abs_add_le (x.value * y.value) z.value
  have exact : |x.value * y.value + z.value| ≤ a * b + c := by linarith [third.bound]
  obtain ⟨finite, error⟩ := near_fusedMulAdd (le_trans exact small)
  refine ⟨finite, ?_⟩
  calc |(Double.fusedMulAdd x y z).value - z.value|
      = |((Double.fusedMulAdd x y z).value - (x.value * y.value + z.value)) +
          x.value * y.value| := by ring_nf
    _ ≤ _ := abs_add_le _ _
    _ ≤ a * b + 1 / 2 ^ 40 := by linarith

theorem Within.fusedMulAdd (first : x.Within a) (second : y.Within b) (third : z.Within c)
    (small : a * b + c ≤ 4) : (Double.fusedMulAdd x y z).Within (a * b + c + 1 / 2 ^ 40) := by
  obtain ⟨finite, near⟩ := first.near_summand second third small
  refine ⟨finite, ?_⟩
  have := abs_sub_abs_le_abs_sub (Double.fusedMulAdd x y z).value z.value
  linarith [third.bound]

theorem Within.le_abs_fusedMulAdd (first : x.Within a) (second : y.Within b) (third : z.Within c)
    (small : a * b + c ≤ 4) (large : d ≤ |z.value|) :
    d - (a * b + 1 / 2 ^ 40) ≤ |(Double.fusedMulAdd x y z).value| := by
  obtain ⟨-, near⟩ := first.near_summand second third small
  have := abs_sub_abs_le_abs_sub z.value (Double.fusedMulAdd x y z).value
  rw [abs_sub_comm] at near
  linarith

end Double

namespace Trigonometry

open Double (Within)

theorem within_cosineCoefficients :
    (cosineCoefficients 0).Within 1 ∧ (cosineCoefficients 1).Within (51 / 100) ∧
      (cosineCoefficients 2).Within (1 / 20) ∧ (cosineCoefficients 3).Within (1 / 500) ∧
      (cosineCoefficients 4).Within (1 / 1000) := by
  refine ⟨Double.within_of_units (n := 1) (k := 0) _ ?_ ?_ ?_,
    Double.within_of_units (n := -2251799801305223) (k := 52) _ ?_ ?_ ?_,
    Double.within_of_units (n := 6004793256873753) (k := 57) _ ?_ ?_ ?_,
    Double.within_of_units (n := -6404139443172765) (k := 62) _ ?_ ?_ ?_,
    Double.within_of_units (n := 7198790431537347) (k := 68) _ ?_ ?_ ?_⟩
  all_goals decide +kernel

theorem value_cosineCoefficients_zero : (cosineCoefficients 0).value = 1 := by
  rw [(cosineCoefficients 0).value_of_units (n := 1) (k := 0) (by decide +kernel)]
  norm_num

theorem within_sineCoefficients :
    (sineCoefficients 0).Within (1 / 4) ∧ (sineCoefficients 1).Within (1 / 100) ∧
      (sineCoefficients 2).Within (1 / 1000) := by
  refine ⟨Double.within_of_units (n := -6004795279517187) (k := 55) _ ?_ ?_ ?_,
    Double.within_of_units (n := 1200793420612337) (k := 57) _ ?_ ?_ ?_,
    Double.within_of_units (n := -1800153096598473) (k := 63) _ ?_ ?_ ?_⟩
  all_goals decide +kernel

variable {x square : Double}

/-- Reduced arguments are not much larger than `π / 4`, and their squares accordingly. -/
theorem within_square (small : x.Within (101 / 128)) : (x * x).Within (5 / 8) :=
  (small.mul small (by norm_num)).mono (by norm_num)

theorem within_sinePolynomial (small : x.Within (101 / 128)) (squared : square.Within (5 / 8)) :
    (sinePolynomial x square).Within 2 := by
  obtain ⟨third, fifth, seventh⟩ := within_sineCoefficients
  have cube := (small.mul squared (by norm_num)).mono (b := 1 / 2) (by norm_num)
  have high := (squared.fusedMulAdd seventh fifth (by norm_num)).mono (b := 1 / 50) (by norm_num)
  have low := (cube.fusedMulAdd third small (by norm_num)).mono (b := 1) (by norm_num)
  have power := (cube.mul squared (by norm_num)).mono (b := 1 / 2) (by norm_num)
  exact (power.fusedMulAdd high low (by norm_num)).mono (by norm_num)

/-- A coefficient of the cosine polynomial, negated on request. -/
def signedCoefficient (negated : Bool) (i : Fin 5) : Double :=
  if negated then -cosineCoefficients i else cosineCoefficients i

theorem value_signedCoefficient (negated : Bool) (i : Fin 5) :
    (signedCoefficient negated i).value = Pattern.factor negated * (cosineCoefficients i).value := by
  cases negated <;> simp [signedCoefficient]

theorem within_signedCoefficient {bound : ℚ} {i : Fin 5} (within : (cosineCoefficients i).Within bound)
    (negated : Bool) : (signedCoefficient negated i).Within bound := by
  cases negated with
  | false => exact within
  | true => exact within.neg

/-- The cosine polynomial is near one, or near minus one if negated. -/
theorem cosinePolynomial_bound (squared : square.Within (5 / 8)) (negated : Bool) :
    (cosinePolynomial square negated).Within 2 ∧ 1 / 2 ≤ |(cosinePolynomial square negated).value| := by
  obtain ⟨zeroth, second, fourth, sixth, eighth⟩ := within_cosineCoefficients
  have signed (i : Fin 5) {bound : ℚ} (within : (cosineCoefficients i).Within bound) :=
    within_signedCoefficient within negated
  have power := (squared.mul squared (by norm_num)).mono (b := 2 / 5) (by norm_num)
  have sixthPower := (power.mul squared (by norm_num)).mono (b := 1 / 3) (by norm_num)
  have high := (squared.fusedMulAdd (signed 4 eighth) (signed 3 sixth) (by norm_num)).mono
    (b := 1 / 300) (by norm_num)
  have low := (squared.fusedMulAdd (signed 1 second) (signed 0 zeroth) (by norm_num)).mono
    (b := 3 / 2) (by norm_num)
  have middle := (power.fusedMulAdd (signed 2 fourth) low (by norm_num)).mono
    (b := 8 / 5) (by norm_num)
  have result := (sixthPower.fusedMulAdd high middle (by norm_num)).mono (b := 2) (by norm_num)
  refine ⟨result, ?_⟩
  -- Each of the last three operations stays near its summand, and the first of these is one.
  have one : 1 ≤ |(signedCoefficient negated 0).value| := by
    rw [value_signedCoefficient, value_cosineCoefficients_zero]
    cases negated <;> simp
  have lowLarge := squared.le_abs_fusedMulAdd (signed 1 second) (signed 0 zeroth) (by norm_num) one
  have middleLarge := power.le_abs_fusedMulAdd (signed 2 fourth) low (by norm_num) lowLarge
  have resultLarge := sixthPower.le_abs_fusedMulAdd high middle (by norm_num) middleLarge
  exact le_trans (by norm_num) resultLarge

/-- Narrowing a number keeps its bounds two and a half. -/
theorem toSingle_bound (within : x.Within 2) :
    x.toSingle.isFinite ∧ |x.toSingle.value| ≤ 2 ∧
      (1 / 2 ≤ |x.value| → 1 / 2 ≤ |x.toSingle.value|) := by
  have halves (n : ℤ) (small : n.natAbs ≤ 2 ^ 24) : Pattern.Represented .single (n / 2) :=
    Pattern.represented_of_eq n 0 1 ⟨by decide, small, by decide, by decide⟩ (by simp)
  have two : Pattern.Represented .single 2 := by convert halves 4 (by decide) using 1; norm_num
  have half : Pattern.Represented .single (1 / 2) := by simpa using halves 1 (by decide)
  have rounds := Double.rounds_toSingle within.finite
  obtain ⟨finite, bound⟩ := rounds.magnitude_le two within.bound
  obtain ⟨low, high⟩ := abs_le.mp within.bound
  refine ⟨finite, bound, fun large => ?_⟩
  rcases le_abs'.mp large with below | above
  · exact le_abs'.mpr (.inl (rounds.between two.neg half.neg low below).le_high)
  · exact le_abs'.mpr (.inr (rounds.between half two above high).low_le)

/-- What a quadrant makes of a reduced argument is not large, and not small if it is the
cosine polynomial. -/
theorem atQuadrant_bound (small : x.Within (101 / 128)) (quadrant : ℤ) (cosine : Bool) :
    (atQuadrant x quadrant cosine).isFinite ∧ |(atQuadrant x quadrant cosine).value| ≤ 2 ∧
      (cosine → 1 / 2 ≤ |(atQuadrant x quadrant cosine).value|) := by
  have squared := within_square small
  cases cosine with
  | false =>
      have signed : Within (101 / 128) (if (quadrant + 1) % 4 ≤ 1 then x else -x) := by
        split
        · exact small
        · exact small.neg
      obtain ⟨finite, bound, -⟩ := toSingle_bound (within_sinePolynomial signed squared)
      exact ⟨finite, bound, by simp⟩
  | true =>
      obtain ⟨within, large⟩ := cosinePolynomial_bound squared (decide (2 ≤ quadrant % 4))
      obtain ⟨finite, bound, notSmall⟩ := toSingle_bound within
      exact ⟨finite, bound, fun _ => notSmall large⟩

section Reduction

/-- Cutting off the fraction part moves a number by no more than one. -/
theorem abs_value_sub_truncate_le (x : Double) : |x.value - x.truncate| ≤ 1 := by
  have quotient : |(Format.double.units x.pattern.code / (2 ^ Format.double.unitExponent : ℕ) : ℚ) -
      (Format.double.units x.pattern.code / 2 ^ Format.double.unitExponent : ℕ)| ≤ 1 := by
    rw [← Nat.floor_div_eq_div (K := ℚ), abs_of_nonneg (sub_nonneg.mpr (Nat.floor_le (by positivity)))]
    exact le_of_lt (sub_lt_iff_lt_add'.mpr (Nat.lt_floor_add_one _))
  rw [Nat.cast_pow, Nat.cast_ofNat] at quotient
  simp only [Double.truncate, Double.value, Pattern.value, Pattern.signedUnits]
  generalize Format.double.units x.pattern.code / 2 ^ Format.double.unitExponent = whole at quotient ⊢
  cases x.pattern.negative with
  | false => exact quotient
  | true =>
      simp only [if_true, Int.cast_neg, Int.cast_natCast, neg_div, neg_sub_neg]
      rwa [abs_sub_comm]

theorem value_scaledInverse : scaledInverse.value = 5734161139222659 / 2 ^ 29 := by
  rw [scaledInverse.value_of_units (n := 5734161139222659) (k := 29) (by decide +kernel)]
  norm_num

theorem value_quarterTurn : quarterTurn.value = 884279719003555 / 2 ^ 49 := by
  rw [quarterTurn.value_of_units (n := 884279719003555) (k := 49) (by decide +kernel)]
  norm_num

/-- The turns that a moderate argument loses are those nearest to it, up to rounding. -/
theorem abs_sub_quarterTurns_le (moderate : x.Within 121) :
    |x.value * (5734161139222659 / 2 ^ 29) - 2 ^ 24 * (reduceModerate x).quarterTurns| ≤
      2 ^ 23 + 2 := by
  have exact : |x.value * scaledInverse.value| ≤ (2 ^ 31 : ℕ) := by
    have factor : |scaledInverse.value| ≤ 2 ^ 24 := by
      rw [value_scaledInverse]
      norm_num [abs_le]
    exact le_trans (Double.abs_mul_le moderate.bound factor) (by norm_num)
  obtain ⟨-, rounded⟩ := (Double.rounds_mul moderate.finite (y := scaledInverse) (by decide)).near
    (2 ^ 31) 20 ⟨by decide, by decide, by decide, by decide⟩ exact
  change |(x * scaledInverse).value - x.value * scaledInverse.value| ≤ _ at rounded
  have truncated := abs_value_sub_truncate_le (x * scaledInverse)
  have nearest : |(x * scaledInverse).truncate - 2 ^ 24 * (reduceModerate x).quarterTurns| ≤
      2 ^ 23 := by
    simp only [reduceModerate, abs_le]
    omega
  have cast : |((x * scaledInverse).truncate : ℚ) - 2 ^ 24 * (reduceModerate x).quarterTurns| ≤
      2 ^ 23 := by exact_mod_cast nearest
  rw [value_scaledInverse] at rounded
  rw [abs_le] at *
  constructor <;> linarith

/-- The reduction of moderate arguments is bounded. -/
theorem within_reduceModerate (moderate : x.Within 121) :
    (reduceModerate x).argument.Within (101 / 128) := by
  have nearest := abs_sub_quarterTurns_le moderate
  have bound := moderate.bound
  rw [abs_le] at nearest bound
  have few : |((reduceModerate x).quarterTurns : ℚ)| ≤ 100 := by
    rw [abs_le]
    constructor <;> linarith
  have fewTurns : |(reduceModerate x).quarterTurns| ≤ 100 := by exact_mod_cast few
  have turns := (Double.ofInt_exact (n := (reduceModerate x).quarterTurns) (by
    rw [abs_le] at fewTurns
    omega)).2
  have sum : (-Double.ofInt (reduceModerate x).quarterTurns).value * quarterTurn.value + x.value =
      x.value - (reduceModerate x).quarterTurns * (884279719003555 / 2 ^ 49) := by
    rw [Double.value_neg, turns, value_quarterTurn]
    ring
  have reduced : |x.value - (reduceModerate x).quarterTurns * (884279719003555 / 2 ^ 49)| ≤
      789 / 1000 := by
    rw [abs_le] at few ⊢
    constructor <;> linarith
  obtain ⟨finite, near⟩ := Double.near_fusedMulAdd
    (x := -Double.ofInt (reduceModerate x).quarterTurns) (y := quarterTurn) (z := x)
    (by rw [sum]; linarith)
  refine ⟨finite, ?_⟩
  rw [sum] at near
  have := abs_sub_abs_le_abs_sub (reduceModerate x).argument.value
    (x.value - (reduceModerate x).quarterTurns * (884279719003555 / 2 ^ 49))
  change |(reduceModerate x).argument.value - _| ≤ _ at near
  linarith

/-- The reduction of large arguments is bounded: their fraction is that of an eighth turn at most. -/
theorem within_reduceLarge (x : Single) : (reduceLarge x).argument.Within (101 / 128) := by
  have argument : ∃ fraction : ℤ, |fraction| ≤ 2 ^ 61 ∧
      (reduceLarge x).argument = Double.ofInt fraction * fractionUnit := by
    refine ⟨_, ?_, rfl⟩
    rw [abs_le, Int.bmod]
    split <;> omega
  obtain ⟨fraction, small, same⟩ := argument
  have represented : Pattern.Represented .double (2 ^ 61) :=
    Pattern.represented_of_eq 1 61 0 ⟨by decide, by decide, by decide, by decide⟩ (by simp)
  obtain ⟨finite, magnitude⟩ :=
    (Double.rounds_ofInt fraction).magnitude_le represented (by exact_mod_cast small)
  have integer : (Double.ofInt fraction).Within (2 ^ 61) := ⟨finite, magnitude⟩
  have unit : fractionUnit.Within (789 / 1000 / 2 ^ 61) :=
    Double.within_of_units (n := 884279719003555) (k := 111) _ (by decide) (by decide +kernel)
      (by norm_num [abs_le])
  rw [same]
  exact (integer.mul unit (by norm_num)).mono (by norm_num)

end Reduction

section Ranks

variable {x : Single}

/-- An angle of a lesser rank is smaller than the angles of a rank are. -/
theorem abs_value_le_of_rank_lt {r : ℕ} {n : ℤ} {k : ℕ} (less : rank x < r)
    (units : (Pattern.mk false (r * 2 ^ 20)).signedUnits .single * 2 ^ k =
      n * 2 ^ Format.single.unitExponent) : |x.value| ≤ n / 2 ^ k := by
  have code_le : x.pattern.code ≤ r * 2 ^ 20 := by
    rw [rank] at less
    omega
  rw [Single.value, Pattern.abs_value, ← Pattern.value_of_signedUnits units,
    Pattern.value_le_value_iff, Pattern.key_false, Pattern.key_false]
  exact_mod_cast code_le

/-- Sine and cosine of a finite angle are those of a reduced argument, with the polynomials
exchanged or not, unless the angle is tiny. -/
theorem evaluate_cases (finite : x.isFinite) :
    (|x.value| ≤ 1 ∧ evaluate x false = x ∧ evaluate x true = 1) ∨
      ∃ argument quadrant exchanged, argument.Within (101 / 128) ∧
        ∀ cosine, evaluate x cosine = atQuadrant argument quadrant (exchanged != cosine) := by
  have widened {bound : ℚ} (le : |x.value| ≤ bound) (small : bound ≤ 120) :
      (Double.ofSingle x).Within (bound + 1 / 2 ^ 40) := by
    obtain ⟨finite, near⟩ := (Double.rounds_ofSingle finite).near 128 40
      ⟨by decide, by decide, by decide, by decide⟩ (by push_cast; linarith)
    refine ⟨finite, ?_⟩
    have := abs_sub_abs_le_abs_sub (Double.ofSingle x).value x.value
    change |(Double.ofSingle x).value - _| ≤ _ at near
    linarith
  have ranks : rank ⟨0x39800000⟩ = 920 ∧ rank ⟨0x3f490fdb⟩ = 1012 ∧ rank ⟨0x42f00000⟩ = 1071 ∧
      rank ⟨0x7f800000⟩ = 2040 := by decide
  obtain ⟨tiny, eighth, moderate, infinite⟩ := ranks
  have bounded : rank x < 2040 := by
    have := Pattern.isFinite_iff.mp finite
    have infinity : Format.single.infinityCode = 2040 * 2 ^ 20 := by decide
    rw [rank]
    omega
  simp only [evaluate, tiny, eighth, moderate, infinite, if_pos bounded]
  rcases Nat.lt_or_ge (rank x) 1012 with small | large
  · simp only [if_pos small]
    rcases Nat.lt_or_ge (rank x) 920 with least | notLeast
    · have le := abs_value_le_of_rank_lt (n := 1) (k := 12) least (by decide +kernel)
      exact .inl ⟨by linarith, by simp [least], by simp [least]⟩
    · have le := abs_value_le_of_rank_lt (n := 3) (k := 2) small (by decide +kernel)
      refine .inr ⟨Double.ofSingle x, 0, false, (widened le (by norm_num)).mono (by norm_num),
        fun cosine => ?_⟩
      rw [if_neg (Nat.not_lt.mpr notLeast), Bool.false_bne]
  · simp only [if_neg (Nat.not_lt.mpr large)]
    rcases Nat.lt_or_ge (rank x) 1071 with reducible | great
    · have le := abs_value_le_of_rank_lt (n := 120) (k := 0) reducible (by decide +kernel)
      have within := (widened le (by norm_num)).mono (b := 121) (by norm_num)
      exact .inr ⟨_, _, _, within_reduceModerate within, fun cosine => by rw [if_pos reducible]⟩
    · exact .inr ⟨_, _, _, within_reduceLarge x, fun cosine => by
        rw [if_neg (Nat.not_lt.mpr great)]⟩

end Ranks

end Trigonometry

namespace Single

variable {x : Single}

/-- Sines and cosines of finite angles are finite and not large. -/
theorem sin_cos_bound (finite : x.isFinite) :
    (x.sin.isFinite ∧ |x.sin.value| ≤ 2) ∧ x.cos.isFinite ∧ |x.cos.value| ≤ 2 := by
  rw [sin, cos]
  rcases Trigonometry.evaluate_cases finite with ⟨small, sin, cos⟩ | ⟨_, quadrant, exchanged, small, same⟩
  · have one : |(1 : Single).value| ≤ 2 := by
      rw [value_ofNat 1 (by decide)]
      norm_num
    rw [sin, cos]
    exact ⟨⟨finite, by linarith⟩, isFinite_ofNat 1 (by decide), one⟩
  · have bound cosine := Trigonometry.atQuadrant_bound small quadrant (exchanged != cosine)
    rw [same, same]
    exact ⟨⟨(bound false).1, (bound false).2.1⟩, (bound true).1, (bound true).2.1⟩

/-- Of the sine and the cosine of a finite angle, one is not small. -/
theorem sin_or_cos_large (finite : x.isFinite) : 1 / 2 ≤ |x.sin.value| ∨ 1 / 2 ≤ |x.cos.value| := by
  rw [sin, cos]
  rcases Trigonometry.evaluate_cases finite with ⟨-, -, cos⟩ | ⟨_, quadrant, exchanged, small, same⟩
  · right
    rw [cos, value_ofNat 1 (by decide)]
    norm_num
  · have large cosine := (Trigonometry.atQuadrant_bound small quadrant (exchanged != cosine)).2.2
    rw [same, same]
    cases exchanged with
    | false => exact .inr (large true rfl)
    | true => exact .inl (large false rfl)

end Single

end SceneForge.Binary
