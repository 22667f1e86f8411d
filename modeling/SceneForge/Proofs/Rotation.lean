import Mathlib.Algebra.Quaternion
import SceneForge.Proofs.Binary.Trigonometry
import SceneForge.Proofs.Fields

/-!
# Rotations have finite components

A rotation that is read is scaled to length one. This keeps it finite if its squared length is
not tiny: the length is then neither too small to divide by nor, unless it is infinite, much
smaller than any component. For authored quaternions the squared length is checked. For
rotations made of angles it is not: there, the product of three rotations of a length near
one is followed through the rounding of all its sums and products.
-/

section Exact

open Quaternion

/-- Rotations in exact arithmetic. -/
abbrev SceneForge.ExactRotation := ℍ[ℚ]

end Exact

namespace SceneForge

open Binary

section Length

namespace Binary.Single

variable {x square : Single}

theorem represented_two_pow (j : ℕ) (small : j < 104) : Pattern.Represented .single (2 ^ j) :=
  Pattern.represented_of_eq 1 j 0 ⟨by decide, by decide, by decide, by
    have range : Format.single.unitExponent = 149 ∧ 2 ^ Format.single.exponentBits = 256 := by decide
    omega⟩ (by simp)

/-- Finite numbers are below the power of two after the greatest one. -/
theorem abs_value_le (finite : x.isFinite) : |x.value| ≤ 2 ^ 128 := by
  have greatest : Pattern.value .single ⟨false, Format.single.infinityCode - 1⟩ =
      (2 ^ 24 - 1) * 2 ^ 104 / 2 ^ 0 := by
    rw [Pattern.value_of_signedUnits (n := (2 ^ 24 - 1) * 2 ^ 104) (k := 0) (by decide +kernel)]
    norm_num
  have code := Pattern.isFinite_iff.mp finite
  have le : |x.value| ≤ Pattern.value .single ⟨false, Format.single.infinityCode - 1⟩ := by
    rw [value, Pattern.abs_value, Pattern.value_le_value_iff, Pattern.key_false, Pattern.key_false]
    omega
  rw [greatest] at le
  exact le_trans le (by norm_num)

/-- Whatever is finite becomes zero when it is divided by the root of infinity. -/
theorem pattern_div_sqrt_infinity (finite : x.isFinite) (nonneg : square.Nonneg)
    (infinite : square.pattern.code = Format.single.infinityCode) :
    (x / square.sqrt).pattern = ⟨x.pattern.negative, 0⟩ := by
  have pattern : square.sqrt.pattern = ⟨false, Format.single.infinityCode⟩ := by
    have root : Pattern.sqrt .single ⟨false, Format.single.infinityCode⟩ =
        ⟨false, Format.single.infinityCode⟩ := by decide
    rw [sqrt, nonneg.pattern_eq, infinite, root, pattern_ofPattern (by decide)]
  have zero : Pattern.div .single x.pattern ⟨false, Format.single.infinityCode⟩ =
      ⟨x.pattern.negative, 0⟩ := by
    have number : Pattern.isNaN .single ⟨false, Format.single.infinityCode⟩ = false := by decide
    have divisor : Pattern.isInfinite .single ⟨false, Format.single.infinityCode⟩ = true := by decide
    simp [Pattern.div, Pattern.isNaN_of_isFinite finite, Pattern.isInfinite_of_isFinite finite,
      number, divisor]
  change (ofPattern (.div .single x.pattern square.sqrt.pattern)).pattern = _
  rw [pattern, zero, pattern_ofPattern (show 0 < 2 ^ 31 by decide)]

theorem lt_value_of_not_le_epsilon (finite : square.isFinite) (large : square.le epsilon = false) :
    1 / 2 ^ 23 < square.value := by
  have tiny : epsilon.value = 1 / 2 ^ 23 := by
    rw [epsilon.value_of_units (n := 1) (k := 23) (by decide +kernel)]
    norm_num
  rw [← tiny, ← not_le, ← le_iff finite (by decide +kernel), large]
  decide

/-- A number divided by one that is not much smaller is finite. -/
theorem isFinite_div (first : x.isFinite) {y : Single} (second : y.isFinite) (positive : 0 < y.value)
    (le : |x.value| ≤ 2 ^ 80 * y.value) : (x / y).isFinite := by
  have quotient : |x.value / y.value| ≤ 2 ^ 80 := by
    rwa [abs_div, abs_of_pos positive, div_le_iff₀ positive]
  exact ((rounds_div first second (ne_of_gt positive)).magnitude_le
    (represented_two_pow 80 (by decide)) quotient).1

/-- A number divided by the root of something at least its square, and not tiny, is finite. -/
theorem isFinite_div_sqrt (finite : x.isFinite) (nonneg : square.Nonneg)
    (le : (x * x).pattern.code ≤ square.pattern.code) (large : square.le epsilon = false) :
    (x / square.sqrt).isFinite := by
  rcases Nat.lt_or_eq_of_le nonneg.code_le with less | infinite
  · have squareFinite : square.isFinite := Pattern.isFinite_iff.mpr less
    have squared := nonneg_mul_self finite
    have order : (x * x).value ≤ square.value := by
      rw [value, value, Pattern.value_le_value_iff, squared.pattern_eq, nonneg.pattern_eq,
        Pattern.key_false, Pattern.key_false]
      exact_mod_cast le
    have notTiny := lt_value_of_not_le_epsilon squareFinite large
    have bound := le_of_abs_le (abs_value_le squareFinite)
    -- The root is bounded from below by what bounds the square.
    have root (low : ℚ) (represented : Pattern.Represented .single low) (nonneg : 0 ≤ low)
        (least : low * low ≤ square.value) :=
      between_sqrt squareFinite (lt_trans (by norm_num) notTiny) represented
        (represented_two_pow 64 (by decide)) nonneg (by positivity) least
        (le_trans bound (by norm_num))
    rcases le_total |x.value| (2 ^ 64) with small | great
    · have between := root (1 / 2 ^ 12)
        (Pattern.represented_of_eq 1 0 12 ⟨by decide, by decide, by decide, by decide⟩ (by norm_num))
        (by positivity) (le_trans (by norm_num) (le_of_lt notTiny))
      have least : 1 / 2 ^ 12 ≤ square.sqrt.value := between.low_le
      exact isFinite_div finite between.finite (lt_of_lt_of_le (by norm_num) least)
        (by linarith)
    · have exact : 2 ^ 100 ≤ x.value * x.value := by
        rw [← abs_mul_abs_self]
        exact le_trans (by norm_num) (mul_le_mul great great (by positivity) (abs_nonneg _))
      have product : 2 ^ 100 ≤ (x * x).value :=
        (rounds_mul finite finite).le_value (represented_two_pow 100 (by decide)) exact
      have between := root (2 ^ 50) (represented_two_pow 50 (by decide)) (by positivity)
        (le_trans (by norm_num) (le_trans product order))
      have least : 2 ^ 50 ≤ square.sqrt.value := between.low_le
      exact isFinite_div finite between.finite (lt_of_lt_of_le (by norm_num) least)
        (by linarith [abs_value_le finite])
  · rw [isFinite, pattern_div_sqrt_infinity finite nonneg infinite]
    exact Pattern.isFinite_iff.mpr (show 0 < Format.single.infinityCode by decide)

end Binary.Single

namespace Quaternion

variable {q : Quaternion}

/-- The squared length is not less than the square of any component. -/
theorem le_lengthSquared (finite : q.Finite) : q.lengthSquared.Nonneg ∧
    ∀ x ∈ q.toList, (x * x).pattern.code ≤ q.lengthSquared.pattern.code := by
  simp only [Finite, toList, List.forall_mem_cons] at finite ⊢
  obtain ⟨x, y, z, w, -⟩ := finite
  obtain ⟨first, xLe, zLe⟩ := (Single.nonneg_mul_self x).add (Single.nonneg_mul_self z)
  obtain ⟨second, yLe, wLe⟩ := (Single.nonneg_mul_self y).add (Single.nonneg_mul_self w)
  obtain ⟨sum, firstLe, secondLe⟩ := first.add second
  exact ⟨sum, xLe.trans firstLe, yLe.trans secondLe, zLe.trans firstLe, wLe.trans secondLe,
    List.forall_mem_nil _⟩

/-- A rotation that is not tiny stays finite when it is scaled to length one. -/
theorem finite_normalize (finite : q.Finite) (large : q.lengthSquared.le Single.epsilon = false) :
    q.normalize.Finite := by
  obtain ⟨nonneg, le⟩ := le_lengthSquared finite
  have scaled (x : Single) (member : x ∈ q.toList) : (x / q.lengthSquared.sqrt).isFinite :=
    Single.isFinite_div_sqrt (finite x member) nonneg (le x member) large
  simp only [toList, List.forall_mem_cons] at scaled
  simp only [Finite, normalize, toList, List.forall_mem_cons]
  obtain ⟨x, y, z, w, -⟩ := scaled
  exact ⟨x, y, z, w, List.forall_mem_nil _⟩

end Quaternion

end Length

section Angles

namespace Binary.Single

variable {x y : Single} {p q a b e f : ℚ}

/-- A number stands for an exact one, of a bounded magnitude, with an error. -/
structure Near (exact bound error : ℚ) (x : Single) : Prop where
  finite : x.isFinite
  exact_le : |exact| ≤ bound
  error_le : |x.value - exact| ≤ error

/-- The error of one operation with results up to 256. -/
def step : ℚ := 1 / 2 ^ 16

theorem near_of_finite (finite : x.isFinite) (le : |x.value| ≤ a) : x.Near x.value a 0 :=
  ⟨finite, le, by rw [sub_self, abs_zero]⟩

theorem Near.neg (near : x.Near p a e) : (-x).Near (-p) a e where
  finite := by rw [isFinite_neg]; exact near.finite
  exact_le := by rw [abs_neg]; exact near.exact_le
  error_le := by
    rw [value_neg, neg_sub_neg, abs_sub_comm]
    exact near.error_le

theorem Near.value_le (near : x.Near p a e) : |x.value| ≤ a + e := by
  have := abs_sub_abs_le_abs_sub x.value p
  linarith [near.exact_le, near.error_le]

/-- An operation errs by the errors of its exact result and one step. -/
theorem near_of_rounds {exact : ℚ} (rounds : x.pattern.Rounds .single exact) (bound : |p| ≤ a)
    (error : |exact - p| ≤ e) (small : a + e ≤ 256) : x.Near p a (e + step) := by
  have magnitude := abs_sub_abs_le_abs_sub exact p
  obtain ⟨finite, near⟩ := rounds.near 256 16 ⟨by decide, by decide, by decide, by decide⟩
    (by push_cast; linarith)
  refine ⟨finite, bound, ?_⟩
  have total := abs_sub_le x.value exact p
  change |x.value - exact| ≤ step at near
  linarith

theorem Near.add (first : x.Near p a e) (second : y.Near q b f) (small : a + b + (e + f) ≤ 256) :
    (x + y).Near (p + q) (a + b) (e + f + step) := by
  refine near_of_rounds (rounds_add first.finite second.finite)
    (le_trans (abs_add_le p q) (add_le_add first.exact_le second.exact_le)) ?_ small
  rw [add_sub_add_comm]
  exact le_trans (abs_add_le _ _) (add_le_add first.error_le second.error_le)

theorem Near.mul (first : x.Near p a e) (second : y.Near q b f)
    (small : a * b + (e * b + (a + e) * f) ≤ 256) :
    (x * y).Near (p * q) (a * b) (e * b + (a + e) * f + step) := by
  refine near_of_rounds (rounds_mul first.finite second.finite)
    (Double.abs_mul_le first.exact_le second.exact_le) ?_ small
  have split : x.value * y.value - p * q = (x.value - p) * q + x.value * (y.value - q) := by ring
  rw [split]
  exact le_trans (abs_add_le _ _) (add_le_add (Double.abs_mul_le first.error_le second.exact_le)
    (Double.abs_mul_le first.value_le second.error_le))

end Binary.Single

namespace Quaternion

variable {first second : Quaternion} {p q : ExactRotation} {a b e f : ℚ}

/-- The components of a rotation stand for exact ones. -/
structure Near (exact : ExactRotation) (bound error : ℚ) (q : Quaternion) : Prop where
  x : q.x.Near exact.imI bound error
  y : q.y.Near exact.imJ bound error
  z : q.z.Near exact.imK bound error
  w : q.w.Near exact.re bound error

/-- The product of two rotations, one with an error, stands for the exact one. -/
theorem Near.mul (left : first.Near p a e) (right : second.Near q b 0)
    (nonneg : 0 ≤ a * b ∧ 0 ≤ e * b) (small : 4 * (a * b + e * b) ≤ 255) :
    (first * second).Near (p * q) (4 * (a * b)) (4 * (e * b) + 7 * Single.step) := by
  have step : Single.step = 1 / 2 ^ 16 := rfl
  obtain ⟨_, _⟩ := nonneg
  have factor {x y : Single} {s t : ℚ} (one : x.Near s a e) (other : y.Near t b 0) :
      (x * y).Near (s * t) (a * b) (e * b + Single.step) := by
    have product := one.mul other (by rw [mul_zero]; linarith)
    rwa [mul_zero, add_zero] at product
  have sum {x y z w : Single} {r s t u : ℚ} (one : x.Near r (a * b) (e * b + Single.step))
      (two : y.Near s (a * b) (e * b + Single.step)) (three : z.Near t (a * b) (e * b + Single.step))
      (four : w.Near u (a * b) (e * b + Single.step)) {exact : ℚ} (same : exact = r + s + (t + u)) :
      ((x + y) + (z + w)).Near exact (4 * (a * b)) (4 * (e * b) + 7 * Single.step) := by
    have total := (one.add two (by linarith)).add (three.add four (by linarith)) (by linarith)
    rw [same]
    convert total using 1 <;> ring
  refine ⟨sum (factor left.w right.x) (factor left.x right.w) (factor left.y right.z)
      (factor left.z right.y).neg ?_,
    sum (factor left.w right.y) (factor left.x right.z).neg (factor left.y right.w)
      (factor left.z right.x) ?_,
    sum (factor left.w right.z) (factor left.x right.y) (factor left.y right.x).neg
      (factor left.z right.w) ?_,
    sum (factor left.w right.w) (factor left.x right.x).neg (factor left.y right.y).neg
      (factor left.z right.z).neg ?_⟩
  · simp only [Quaternion.imI_mul]
    ring
  · simp only [Quaternion.imJ_mul]
    ring
  · simp only [Quaternion.imK_mul]
    ring
  · simp only [Quaternion.re_mul]
    ring

/-- The exact rotation that a finite one is. -/
def value (q : Quaternion) : ExactRotation := ⟨q.w.value, q.x.value, q.y.value, q.z.value⟩

theorem near_value {q : Quaternion} (bounded : ∀ x ∈ q.toList, x.isFinite ∧ |x.value| ≤ a) :
    q.Near q.value a 0 := by
  simp only [toList, List.forall_mem_cons] at bounded
  obtain ⟨⟨x, xLe⟩, ⟨y, yLe⟩, ⟨z, zLe⟩, ⟨w, wLe⟩, -⟩ := bounded
  exact ⟨Single.near_of_finite x xLe, Single.near_of_finite y yLe, Single.near_of_finite z zLe,
    Single.near_of_finite w wLe⟩

theorem Near.finite {q : Quaternion} (near : q.Near p a e) : q.Finite := by
  simp only [Finite, toList, List.forall_mem_cons]
  exact ⟨near.x.finite, near.y.finite, near.z.finite, near.w.finite, List.forall_mem_nil _⟩

/-- A rotation that stands for a long enough one has a component that is not small. -/
theorem Near.exists_large {q : Quaternion} (near : q.Near p a e) (close : e ≤ 1 / 32)
    (long : 1 / 64 ≤ Quaternion.normSq p) : ∃ x ∈ q.toList, 1 / 32 ≤ |x.value| := by
  by_contra none
  push Not at none
  simp only [toList, List.forall_mem_cons] at none
  obtain ⟨x, y, z, w, -⟩ := none
  have small {x : Single} {exact : ℚ} (near : x.Near exact a e) (little : |x.value| < 1 / 32) :
      exact ^ 2 < (1 / 16) ^ 2 := by
    have error := abs_sub_abs_le_abs_sub exact x.value
    rw [abs_sub_comm] at error
    have less : |exact| < 1 / 16 := by linarith [near.error_le]
    exact sq_lt_sq' (by linarith [neg_abs_le exact]) (by linarith [le_abs_self exact])
  rw [Quaternion.normSq_def'] at long
  linarith [small near.x x, small near.y y, small near.z z, small near.w w]

/-- A rotation with a component that is not small is not tiny. -/
theorem lengthSquared_not_tiny {q : Quaternion} (finite : q.Finite) {x : Single}
    (member : x ∈ q.toList) (large : 1 / 32 ≤ |x.value|) : q.lengthSquared.le Single.epsilon = false := by
  obtain ⟨nonneg, le⟩ := le_lengthSquared finite
  have square : 1 / 2 ^ 10 ≤ x.value * x.value := by
    rw [← abs_mul_abs_self]
    exact le_trans (by norm_num) (mul_le_mul large large (by norm_num) (abs_nonneg _))
  have product : 1 / 2 ^ 10 ≤ (x * x).value :=
    (Single.rounds_mul (finite x member) (finite x member)).le_value
      (Pattern.represented_of_eq 1 0 10 ⟨by decide, by decide, by decide, by decide⟩ (by norm_num))
      square
  have above : Single.epsilon.value < (x * x).value := by
    rw [Single.epsilon.value_of_units (n := 1) (k := 23) (by decide +kernel)]
    exact lt_of_lt_of_le (by norm_num) product
  rw [Single.value, Single.value, Pattern.value_lt_value_iff,
    (Single.nonneg_mul_self (finite x member)).pattern_eq, Pattern.key_false] at above
  have code := le x member
  have order : ¬ q.lengthSquared.pattern.key ≤ Single.epsilon.pattern.key := by
    rw [nonneg.pattern_eq, Pattern.key_false]
    omega
  rw [← Bool.not_eq_true, Single.le, Pattern.le]
  exact fun below => order (of_decide_eq_true (Bool.and_eq_true_iff.mp below).2)

/-- The rotation about an axis by twice an angle: a sine and a cosine of the angle, and zeros. -/
structure IsTurn (q : Quaternion) : Prop where
  bounded : ∀ x ∈ q.toList, x.isFinite ∧ |x.value| ≤ 2
  long : 1 / 4 ≤ Quaternion.normSq q.value

theorem isTurn_of_mem {q : Quaternion} {angle : Single} (finite : angle.isFinite)
    (components : ∀ x ∈ q.toList, x = 0 ∨ x = angle.sin ∨ x = angle.cos)
    (sin : angle.sin ∈ q.toList) (cos : angle.cos ∈ q.toList) : q.IsTurn := by
  obtain ⟨sinBound, cosBound⟩ := Single.sin_cos_bound finite
  have zero : (0 : Single).isFinite ∧ |(0 : Single).value| ≤ 2 := by
    rw [Single.value_ofNat 0 (by decide)]
    exact ⟨Single.isFinite_ofNat 0 (by decide), by norm_num⟩
  refine ⟨fun x member => ?_, ?_⟩
  · rcases components x member with rfl | rfl | rfl
    · exact zero
    · exact sinBound
    · exact cosBound
  · have square {x : Single} (member : x ∈ q.toList) (large : 1 / 2 ≤ |x.value|) :
        1 / 4 ≤ Quaternion.normSq q.value := by
      have least : 1 / 4 ≤ x.value ^ 2 := by
        rw [← sq_abs]
        exact le_trans (by norm_num) (pow_le_pow_left₀ (by norm_num) large 2)
      rw [Quaternion.normSq_def', value]
      have positive (y : Single) := sq_nonneg y.value
      simp only [toList, List.mem_cons, List.not_mem_nil, or_false] at member
      rcases member with rfl | rfl | rfl | rfl <;>
        linarith [positive q.x, positive q.y, positive q.z, positive q.w]
    rcases Single.sin_or_cos_large finite with large | large
    · exact square sin large
    · exact square cos large

/-- The product of three turns is long enough to be scaled. -/
theorem finite_normalize_mul {q r s : Quaternion} (first : q.IsTurn) (second : r.IsTurn)
    (third : s.IsTurn) : (q * r * s).normalize.Finite := by
  have step : Single.step = 1 / 2 ^ 16 := rfl
  have two := (near_value first.bounded).mul (near_value second.bounded) (by norm_num) (by norm_num)
  have three := two.mul (near_value third.bounded) (by norm_num [step]) (by norm_num [step])
  have long : 1 / 64 ≤ Quaternion.normSq (q.value * r.value * s.value) := by
    rw [map_mul, map_mul]
    calc (1 / 64 : ℚ) = 1 / 4 * (1 / 4) * (1 / 4) := by norm_num
      _ ≤ _ := mul_le_mul (mul_le_mul first.long second.long (by norm_num)
          (le_trans (by norm_num) first.long)) third.long (by norm_num)
          (mul_nonneg (le_trans (by norm_num) first.long) (le_trans (by norm_num) second.long))
  obtain ⟨x, member, large⟩ := three.exists_large (by norm_num [step]) long
  exact finite_normalize three.finite (lengthSquared_not_tiny three.finite member large)

/-- The rotation by angles is finite. -/
theorem finite_ofAngles {x y z : Single} (xFinite : x.isFinite) (yFinite : y.isFinite)
    (zFinite : z.isFinite) : (ofAngles x y z).Finite := by
  have half {angle : Single} (finite : angle.isFinite) : (angle * (1 / 2)).isFinite := by
    refine Single.isFinite_mul finite (by decide +kernel) ?_
    rw [Single.value_of_units (n := 1) (k := 1) (1 / 2) (by decide +kernel)]
    norm_num [abs_le]
  exact finite_normalize_mul
    (isTurn_of_mem (half zFinite) (by simp [toList]) (by simp [toList]) (by simp [toList]))
    (isTurn_of_mem (half yFinite) (by simp [toList]) (by simp [toList]) (by simp [toList]))
    (isTurn_of_mem (half xFinite) (by simp [toList]) (by simp [toList]) (by simp [toList]))

end Quaternion

end Angles

namespace FieldValue

variable {value : Json.Value} {q : Quaternion}

/-- A rotation that is read is finite. -/
theorem finite_of_rotation (read : rotation value = .ok q) : q.Finite := by
  rw [rotation.eq_def] at read
  split at read
  · obtain ⟨angles, numbers, same⟩ := bind_eq_ok_iff.mp read
    rw [← Except.ok.inj same]
    have finite := Vector3.finite_ofList (isFinite_of_numbers numbers)
    simp only [Vector3.Finite, Vector3.toList, List.forall_mem_cons] at finite
    obtain ⟨x, y, z, -⟩ := finite
    exact Quaternion.finite_ofAngles (Single.isFinite_toRadians x) (Single.isFinite_toRadians y)
      (Single.isFinite_toRadians z)
  · obtain ⟨components, numbers, checked⟩ := bind_eq_ok_iff.mp read
    dsimp only at checked
    split at checked
    next => cases checked
    next large =>
      rw [← Except.ok.inj checked]
      exact Quaternion.finite_normalize (Quaternion.finite_ofList (isFinite_of_numbers numbers))
        (Bool.not_eq_true _ ▸ large)
  · cases read

end FieldValue

/-- All components of a transform are finite. -/
structure Transform.Finite (transform : Transform) : Prop where
  position : transform.position.Finite
  rotation : transform.rotation.Finite
  scale : transform.scale.Finite

theorem Transform.finite_identity : identity.Finite := by
  refine ⟨?_, ?_, ?_⟩ <;>
    simp only [Vector3.Finite, Vector3.toList, Quaternion.Finite, Quaternion.toList, identity,
      List.forall_mem_cons]
  · exact ⟨by decide +kernel, by decide +kernel, by decide +kernel, List.forall_mem_nil _⟩
  · exact ⟨by decide +kernel, by decide +kernel, by decide +kernel, by decide +kernel,
      List.forall_mem_nil _⟩
  · exact ⟨by decide +kernel, by decide +kernel, by decide +kernel, List.forall_mem_nil _⟩

end SceneForge
