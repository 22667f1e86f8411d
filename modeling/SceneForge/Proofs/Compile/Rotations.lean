import Mathlib.Algebra.Order.Archimedean.Basic
import SceneForge.Proofs.Compile.Numbers

/-!
# Which rotations vanish

An authored quaternion is divided by its length, which is computed in single precision. If the
squared length becomes infinite there, all components become zero; nothing checks for that. If
it stays finite, the length is at most four times the greatest component, so that this one is
at least a quarter in the end. Whether the squared length is infinite is decided by the
magnitudes of the components up to a factor of four.
-/

namespace SceneForge

open Binary

section Magnitudes

/-- A bound from below of a magnitude bounds the magnitude rounded. -/
theorem Binary.Pattern.Rounds.le_magnitude {format : Format} {exact low : ℚ} {x : Pattern}
    (rounds : x.Rounds format exact) (below : Represented format low) (bound : low ≤ |exact|) :
    low ≤ |x.value format| := by
  rcases le_total 0 exact with nonneg | nonpos
  · rw [abs_of_nonneg nonneg] at bound
    exact le_trans (rounds.le_value below bound) (le_abs_self _)
  · rw [abs_of_nonpos nonpos] at bound
    have opposite := rounds.neg.le_value below bound
    rw [Pattern.value_neg] at opposite
    exact le_trans opposite (neg_le_abs _)

namespace Binary.Single

variable {x : Single}

/-- Powers of two in the middle of the range are represented. -/
theorem represented_power {n k : ℕ} (fine : k ≤ 126) (inRange : n < k + 127) :
    Pattern.Represented .single (2 ^ n / 2 ^ k) := by
  have exponents : Format.single.unitExponent = 149 ∧ 2 ^ Format.single.exponentBits = 256 := by decide
  refine Pattern.represented_of_eq (2 ^ 23) n (k + 23) ⟨by decide, by decide, by omega, by omega⟩ ?_
  rw [pow_add, ← mul_assoc, div_mul_cancel₀ _ (by positivity), mul_comm]
  norm_num

end Binary.Single

end Magnitudes

namespace Quaternion

variable {q : Quaternion}

/-- Bounds of the squares of all components bound the squared length, as long as nothing
overflows. -/
theorem lengthSquared_le (finite : q.Finite) {n k : ℕ} (fine : k ≤ 126) (inRange : n + 2 < k + 127)
    (squares : ∀ x ∈ q.toList, x.value * x.value ≤ 2 ^ n / 2 ^ k) :
    q.lengthSquared.isFinite ∧ |q.lengthSquared.value| ≤ 2 ^ (n + 2) / 2 ^ k := by
  have square (x : Single) (member : x ∈ q.toList) :
      (x * x).isFinite ∧ |(x * x).value| ≤ 2 ^ n / 2 ^ k := by
    refine (Single.rounds_mul (finite x member) (finite x member)).magnitude_le
      (Single.represented_power fine (by omega)) ?_
    rw [abs_mul_self]
    exact squares x member
  have sum {x y : Single} {m : ℕ} (less : m + 1 < k + 127)
      (first : x.isFinite ∧ |x.value| ≤ 2 ^ m / 2 ^ k) (second : y.isFinite ∧ |y.value| ≤ 2 ^ m / 2 ^ k) :
      (x + y).isFinite ∧ |(x + y).value| ≤ 2 ^ (m + 1) / 2 ^ k := by
    refine (Single.rounds_add first.1 second.1).magnitude_le (Single.represented_power fine less) ?_
    calc |x.value + y.value| ≤ |x.value| + |y.value| := abs_add_le _ _
      _ ≤ 2 ^ m / 2 ^ k + 2 ^ m / 2 ^ k := add_le_add first.2 second.2
      _ = 2 ^ (m + 1) / 2 ^ k := by ring
  simp only [toList, List.forall_mem_cons] at square
  obtain ⟨x, y, z, w, -⟩ := square
  exact sum (by omega) (sum (by omega) x z) (sum (by omega) y w)

theorem exists_greatest (q : Quaternion) :
    ∃ x ∈ q.toList, ∀ y ∈ q.toList, |y.value| ≤ |x.value| := by
  obtain ⟨x, member, greatest⟩ := q.toList.toFinset.exists_max_image (fun x => |x.value|)
    ⟨q.x, by simp [toList]⟩
  simp only [List.mem_toFinset] at member greatest
  exact ⟨x, member, greatest⟩

/-- If the squared length is not tiny, some component is not. -/
theorem lt_of_not_tiny (finite : q.Finite) (measured : q.lengthSquared.isFinite)
    (large : q.lengthSquared.le Single.epsilon = false) {bound : ℚ}
    (bounded : ∀ x ∈ q.toList, |x.value| ≤ bound) : 1 / 2 ^ 14 < bound := by
  by_contra small
  have squares (x : Single) (member : x ∈ q.toList) : x.value * x.value ≤ 2 ^ 0 / 2 ^ 28 := by
    have le := le_trans (bounded x member) (not_lt.mp small)
    rw [← abs_mul_abs_self]
    exact le_trans (mul_le_mul le le (abs_nonneg _) (by positivity)) (by norm_num)
  have tiny := (lengthSquared_le finite (by decide) (by decide) squares).2
  have least := Single.lt_value_of_not_le_epsilon measured large
  have above := lt_of_lt_of_le least (le_trans (le_abs_self _) tiny)
  norm_num at above

/-- The length that is computed is at most four times what bounds all components. -/
theorem sqrt_lengthSquared_le (finite : q.Finite) (measured : q.lengthSquared.isFinite)
    (large : q.lengthSquared.le Single.epsilon = false) {bound : ℚ}
    (bounded : ∀ x ∈ q.toList, |x.value| ≤ bound) :
    q.lengthSquared.sqrt.isFinite ∧ 0 < q.lengthSquared.sqrt.value ∧
      q.lengthSquared.sqrt.value ≤ 4 * bound := by
  have least := Single.lt_value_of_not_le_epsilon measured large
  have positive : 0 < q.lengthSquared.value := lt_trans (by norm_num) least
  have root {high : ℚ} (represented : Pattern.Represented .single high) (nonneg : 0 ≤ high)
      (le : q.lengthSquared.value ≤ high * high) (four : high ≤ 4 * bound) :
      q.lengthSquared.sqrt.isFinite ∧ 0 < q.lengthSquared.sqrt.value ∧
        q.lengthSquared.sqrt.value ≤ 4 * bound := by
    have between := Single.between_sqrt measured positive
      (@Single.represented_power 0 12 (by decide) (by decide)) represented (by positivity) nonneg
      (le_trans (by norm_num) (le_of_lt least)) le
    exact ⟨between.finite, lt_of_lt_of_le (by positivity) between.low_le,
      le_trans between.le_high four⟩
  rcases le_or_gt (2 ^ 62) bound with great | small
  · -- The greatest finite number bounds the squared length.
    refine root (Single.represented_two_pow 64 (by decide)) (by positivity) ?_ (by linarith)
    exact le_trans (le_of_abs_le (Single.abs_value_le measured)) (by norm_num)
  · have one : 1 ≤ bound * 2 ^ 14 := by
      have := lt_of_not_tiny finite measured large bounded
      rw [div_lt_iff₀ (by positivity)] at this
      exact le_of_lt this
    obtain ⟨n, low, high⟩ := exists_nat_pow_near one one_lt_two
    have inRange : n < 76 := by
      have less : (2 : ℚ) ^ n < 2 ^ 76 := lt_of_le_of_lt low (by linarith)
      exact (pow_lt_pow_iff_right₀ one_lt_two).mp less
    have squares (x : Single) (member : x ∈ q.toList) :
        x.value * x.value ≤ 2 ^ (2 * n + 2) / 2 ^ 28 := by
      have le : |x.value| ≤ 2 ^ (n + 1) / 2 ^ 14 := by
        rw [le_div_iff₀ (by positivity)]
        exact le_trans (mul_le_mul_of_nonneg_right (bounded x member) (by positivity)) (le_of_lt high)
      rw [← abs_mul_abs_self]
      exact le_trans (mul_le_mul le le (abs_nonneg _) (by positivity)) (le_of_eq (by ring))
    have length := (lengthSquared_le finite (by decide) (by omega) squares).2
    refine root (@Single.represented_power (n + 2) 14 (by decide) (by omega)) (by positivity) ?_ ?_
    · exact le_trans (le_trans (le_abs_self _) length) (le_of_eq (by ring))
    · rw [div_le_iff₀ (by positivity)]
      calc (2 : ℚ) ^ (n + 2) = 4 * 2 ^ n := by ring
        _ ≤ 4 * bound * 2 ^ 14 := by linarith

/-- What scaling to length one makes of a rotation: it vanishes exactly if the squared length
overflows, and else a component is at least a quarter. -/
structure Scales (authored scaled : Quaternion) : Prop where
  vanishes : (∀ x ∈ scaled.toList, x.isZero) ↔ authored.lengthSquared.isFinite = false
  long : authored.lengthSquared.isFinite → ∃ x ∈ scaled.toList, 1 / 4 ≤ |x.value|
  overflows : ∀ x ∈ authored.toList, 2 ^ 64 ≤ |x.value| → authored.lengthSquared.isFinite = false
  measured : (∀ x ∈ authored.toList, |x.value| ≤ 2 ^ 62) → authored.lengthSquared.isFinite

theorem toList_normalize (q : Quaternion) :
    q.normalize.toList = q.toList.map fun x => x / q.lengthSquared.sqrt := rfl

theorem exists_long_normalize (finite : q.Finite) (measured : q.lengthSquared.isFinite)
    (large : q.lengthSquared.le Single.epsilon = false) :
    ∃ x ∈ q.normalize.toList, 1 / 4 ≤ |x.value| := by
  obtain ⟨x, member, greatest⟩ := q.exists_greatest
  obtain ⟨rootFinite, positive, four⟩ := sqrt_lengthSquared_le finite measured large greatest
  refine ⟨x / q.lengthSquared.sqrt, ?_, ?_⟩
  · rw [toList_normalize]
    exact List.mem_map_of_mem member
  · have quarter : Pattern.Represented .single (1 / 4) :=
      Pattern.represented_of_eq 1 0 2 ⟨by decide, by decide, by decide, by decide⟩ (by norm_num)
    refine (Single.rounds_div (finite x member) rootFinite (ne_of_gt positive)).le_magnitude quarter ?_
    rw [abs_div, abs_of_pos positive, le_div_iff₀ positive]
    linarith

theorem scales_normalize (finite : q.Finite) (large : q.lengthSquared.le Single.epsilon = false) :
    q.Scales q.normalize where
  vanishes := by
    constructor
    · intro zeros
      by_contra measured
      obtain ⟨x, member, long⟩ :=
        exists_long_normalize finite (Bool.not_eq_false _ ▸ measured) large
      rw [Single.isZero_iff.mp (zeros x member)] at long
      norm_num at long
    · intro infinite x member
      obtain ⟨nonneg, -⟩ := le_lengthSquared finite
      rw [toList_normalize, List.mem_map] at member
      obtain ⟨y, authored, rfl⟩ := member
      have code : q.lengthSquared.pattern.code = Format.single.infinityCode :=
        le_antisymm nonneg.code_le (not_lt.mp (of_decide_eq_false infinite))
      rw [Single.isZero, Single.pattern_div_sqrt_infinity (finite y authored) nonneg code]
      rfl
  long measured := exists_long_normalize finite measured large
  overflows x member great := by
    obtain ⟨-, le⟩ := le_lengthSquared finite
    by_contra measured
    have code := Pattern.isFinite_iff.mp (Bool.not_eq_false _ ▸ measured)
    have square : (x * x).isFinite := Pattern.isFinite_iff.mpr (Nat.lt_of_le_of_lt (le x member) code)
    have less := (Single.isFinite_mul_self_iff (finite x member)).mp square
    rw [← abs_mul_abs_self] at less
    have least := mul_le_mul great great (by positivity) (abs_nonneg _)
    linarith
  measured bounded := by
    refine (@lengthSquared_le q finite 124 0 (by decide) (by decide) fun x member => ?_).1
    rw [← abs_mul_abs_self]
    exact le_trans (mul_le_mul (bounded x member) (bounded x member) (abs_nonneg _) (by positivity))
      (by norm_num)

end Quaternion

/-- A rotation was read of an array of four numbers: their quaternion is finite and not tiny, and
the rotation is this quaternion scaled. -/
def Quaternion.FromFour (elements : List Json.Value) (q : Quaternion) : Prop :=
  ∃ components, FieldValue.numbers 4 (.array elements) = .ok components ∧
    (Quaternion.ofList components).Finite ∧
    (Quaternion.ofList components).lengthSquared.le Single.epsilon = false ∧
    (Quaternion.ofList components).Scales q

theorem FieldValue.fromFour_of_rotation {elements : List Json.Value} {q : Quaternion}
    (four : elements.length = 4) (read : rotation (.array elements) = .ok q) : q.FromFour elements := by
  obtain ⟨x, y, z, w, rfl⟩ := List.length_eq_four.mp four
  obtain ⟨components, numbers, checked⟩ := bind_eq_ok_iff.mp read
  dsimp only at checked
  split at checked
  next => cases checked
  next large =>
    have finite := Quaternion.finite_ofList (isFinite_of_numbers numbers)
    have large := Bool.not_eq_true _ ▸ large
    cases checked
    exact ⟨components, numbers, finite, large, Quaternion.scales_normalize finite large⟩

/-- If the properties of a node give its rotation as four numbers, its rotation is made of these. -/
def SourceNode.Turns (source : SourceNode) (node : Node) : Prop :=
  ∀ properties elements, source.properties = some (.object properties) →
    Json.Object.get? properties "Rotation" = some (.array elements) → elements.length = 4 →
    node.transform.rotation.FromFour elements

theorem DescribesTransform.fromFour {properties : Fields} {transform : Transform}
    (described : DescribesTransform (some (.object properties)) transform)
    {elements : List Json.Value} (authored : properties.get? "Rotation" = some (.array elements))
    (four : elements.length = 4) : transform.rotation.FromFour elements := by
  cases described with
  | authored read =>
      obtain ⟨position, -, read⟩ := bind_eq_ok_iff.mp read
      obtain ⟨rotation, rotated, read⟩ := bind_eq_ok_iff.mp read
      obtain ⟨scale, -, same⟩ := bind_eq_ok_iff.mp read
      rw [← Except.ok.inj same]
      rcases Fields.optional_eq_ok_iff.mp rotated with ⟨absent, -⟩ | ⟨value, found, reads⟩
      · cases authored.symm.trans absent
      · cases authored.symm.trans found
        exact FieldValue.fromFour_of_rotation four reads

/-- Rotations that are given by four numbers, read by themselves or as those of the nodes of a
compiled scene. The numbers are finite, and their squared length, computed in single precision, is
not tiny. It may be infinite, however, and exactly then all components of the rotation are zero;
otherwise one of them is at least a quarter. The squared length is infinite if some number is at
least `2 ^ 64`, and it is not if none is beyond `2 ^ 62`. -/
theorem Compiler.rotations_scaled (compiler : Compiler) (fields : Fields) :
    (∀ field standard q elements,
      fields.get? field = some (.array elements) → elements.length = 4 →
      fields.rotation field standard = .ok q → q.FromFour elements) ∧
    ∀ text buffer, compiler.buffer text = .ok buffer →
      ∃ document scene, Document.read text = .ok document ∧ Scene.decode buffer = .ok scene ∧
        List.Forall₂ SourceNode.Turns document.nodes scene.nodes := by
  constructor
  · intro field standard q elements authored four read
    rcases Fields.optional_eq_ok_iff.mp read with ⟨absent, -⟩ | ⟨value, found, reads⟩
    · cases authored.symm.trans absent
    · cases authored.symm.trans found
      exact FieldValue.fromFour_of_rotation four reads
  · intro text buffer compiled
    obtain ⟨document, parsed, written⟩ := buffer_eq_ok compiled
    obtain ⟨scene, decoded, described⟩ := Writing.document_eq_ok written
    refine ⟨document, scene, parsed, decoded,
      described.nodes_described.imp fun source node described => ?_⟩
    intro properties elements given authored four
    have transformed := described.transform_described
    rw [given] at transformed
    exact transformed.fromFour authored four

/-- One number above `2 ^ 64` is enough for a scene with a rotation of zeros. -/
theorem Compiler.rotations_scaled_overflow :
    let text := "\x7b\"Nodes\":[\x7b\"Properties\":\x7b\"Rotation\":[1e20,0,0,0]\x7d\x7d]\x7d"
    let elements : List Json.Value := [.number (.real ⟨0x4415af1d78b58c40⟩), .number (.integer 0),
      .number (.integer 0), .number (.integer 0)]
    (∃ q : Quaternion, Fields.rotation [("Rotation", .array elements)] "Rotation" ⟨0, 0, 0, 1⟩ = .ok q ∧
      q.FromFour elements ∧ ∀ x ∈ q.toList, x.isZero) ∧
    ∃ buffer document scene, (⟨.standard, .empty, .standard⟩ : Compiler).buffer text = .ok buffer ∧
      Document.read text = .ok document ∧ Scene.decode buffer = .ok scene ∧
      List.Forall₂ SourceNode.Turns document.nodes scene.nodes ∧
      ∃ node ∈ scene.nodes, node.transform.rotation = ⟨0, 0, 0, 0⟩ := by
  intro text elements
  constructor
  · have zeros : ((Fields.rotation [("Rotation", .array elements)] "Rotation"
        ⟨0, 0, 0, 1⟩).toOption.any fun q => q.toList.all Single.isZero) := by decide +kernel
    cases read : Fields.rotation [("Rotation", .array elements)] "Rotation" ⟨0, 0, 0, 1⟩ with
    | error error =>
        rw [read] at zeros
        cases zeros
    | ok q =>
        rw [read, Except.toOption, Option.any_some, List.all_eq_true] at zeros
        have turns := (rotations_scaled ⟨.standard, .empty, .standard⟩ _).1 _ _ _ elements rfl rfl read
        exact ⟨q, rfl, turns, zeros⟩
  · have vanishes : ((⟨.standard, .empty, .standard⟩ : Compiler).buffer text).toOption.any fun buffer =>
        (Scene.decode buffer).toOption.any fun scene => scene.nodes.any fun node =>
          node.transform.rotation = ⟨0, 0, 0, 0⟩ := by decide +kernel
    cases compiled : (⟨.standard, .empty, .standard⟩ : Compiler).buffer text with
    | error error =>
        rw [compiled] at vanishes
        cases vanishes
    | ok buffer =>
        obtain ⟨document, scene, parsed, decoded, turns⟩ := (rotations_scaled _ []).2 text buffer compiled
        rw [compiled, Except.toOption, Option.any_some, decoded, Except.toOption, Option.any_some,
          List.any_eq_true] at vanishes
        obtain ⟨node, member, same⟩ := vanishes
        exact ⟨buffer, document, scene, rfl, parsed, decoded, turns, node, member, of_decide_eq_true same⟩

end SceneForge
