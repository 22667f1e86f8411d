import Mathlib.Tactic.Ring
import SceneForge.Binary.Format

/-!
# Codes and their magnitudes

The code of a magnitude below infinity is a significand above a shift, and the magnitude is
the significand shifted; so codes are ordered as their magnitudes are. Rounding is monotone:
it does not move a quotient past any code. What is known of an exact result in terms of
magnitudes that have a code is therefore known of the rounded one as well.
-/

namespace SceneForge.Binary

section Quotient

variable {numerator denominator bound : Nat}

/-- Rounding does not pass an integer above. -/
theorem roundQuotient_le (positive : 0 < denominator) (le : numerator ≤ bound * denominator) :
    roundQuotient numerator denominator ≤ bound := by
  have division := Nat.div_add_mod numerator denominator
  have remainder := Nat.mod_lt numerator positive
  rw [roundQuotient]
  generalize numerator / denominator = quotient at *
  generalize numerator % denominator = rest at *
  rcases Nat.lt_or_ge quotient bound with less | greater
  · split_ifs <;> omega
  · have exact : denominator * quotient + rest ≤ denominator * bound := by
      rw [division, Nat.mul_comm]
      exact le
    have least := Nat.mul_le_mul_left denominator greater
    have same : quotient ≤ bound := Nat.le_of_mul_le_mul_left (by omega) positive
    rw [if_pos (by omega)]
    exact same

/-- Rounding does not pass an integer below. -/
theorem le_roundQuotient (positive : 0 < denominator) (le : bound * denominator ≤ numerator) :
    bound ≤ roundQuotient numerator denominator := by
  have whole := (Nat.le_div_iff_mul_le positive).mpr le
  rw [roundQuotient]
  split_ifs <;> omega

/-- A half below an even integer is rounded up to it. -/
theorem roundQuotient_lt_iff (positive : 0 < denominator) :
    roundQuotient numerator denominator < 2 * bound ↔
      2 * numerator + denominator < 4 * bound * denominator := by
  have division := Nat.div_add_mod numerator denominator
  have remainder := Nat.mod_lt numerator positive
  rw [roundQuotient]
  generalize numerator / denominator = quotient at *
  generalize numerator % denominator = rest at *
  rcases Nat.lt_trichotomy (quotient + 1) (2 * bound) with less | last | greater
  · have steps := Nat.mul_le_mul_left denominator (Nat.succ_le_of_lt less)
    rw [Nat.mul_succ, Nat.mul_succ, Nat.mul_left_comm] at steps
    have whole : 4 * bound * denominator = 2 * (2 * (denominator * bound)) := by ring
    refine iff_of_true ?_ (by omega)
    split_ifs <;> omega
  · have steps := congrArg (denominator * ·) last
    simp only [Nat.mul_add, Nat.mul_left_comm denominator 2] at steps
    have whole : 4 * bound * denominator = 2 * (2 * (denominator * bound)) := by ring
    split_ifs <;> omega
  · have steps := Nat.mul_le_mul_left denominator (Nat.le_of_lt_succ greater)
    rw [Nat.mul_left_comm] at steps
    have whole : 4 * bound * denominator = 2 * (2 * (denominator * bound)) := by ring
    refine iff_of_false ?_ (by omega)
    split_ifs <;> omega

end Quotient

namespace Format

variable (format : Format)

/-- Significands at a shift; at the least shift, they may have fewer bits. -/
structure Significand (shift significand : Nat) : Prop where
  low : shift = 0 ∨ 2 ^ format.fractionBits ≤ significand
  high : significand ≤ 2 * 2 ^ format.fractionBits

variable {format} {shift significand code other numerator denominator : Nat}

theorem units_of_significand (valid : format.Significand shift significand) :
    format.units (shift * 2 ^ format.fractionBits + significand) = significand * 2 ^ shift := by
  obtain ⟨low, high⟩ := valid
  have positive : 0 < 2 ^ format.fractionBits := Nat.two_pow_pos _
  rw [units]
  generalize 2 ^ format.fractionBits = unit at *
  rw [Nat.mul_comm shift unit, Nat.mul_add_div positive, Nat.mul_add_mod]
  rcases Nat.lt_or_ge significand unit with small | large
  · obtain rfl : shift = 0 := by omega
    rw [Nat.div_eq_of_lt small]
    simp
  rcases Nat.lt_or_ge significand (2 * unit) with normal | carried
  · have quotient : significand / unit = 1 :=
      (Nat.div_eq_iff positive).mpr ⟨by omega, by omega⟩
    have rest : significand % unit = significand - unit := by
      rw [Nat.mod_eq_sub_mod large, Nat.mod_eq_of_lt (by omega)]
    rw [quotient, rest]
    split_ifs with least
    · obtain rfl : shift = 0 := by omega
      simp
    · rw [Nat.add_sub_cancel, Nat.add_sub_cancel' large]
  · obtain rfl : significand = 2 * unit := by omega
    rw [Nat.mul_div_cancel _ positive, Nat.mul_mod_left, if_neg (by omega)]
    rw [show shift + 2 - 1 = shift + 1 by omega, Nat.pow_succ]
    ring

/-- Every code is a significand above a shift. -/
theorem exists_significand (format : Format) (code : Nat) :
    ∃ shift significand, code = shift * 2 ^ format.fractionBits + significand ∧
      format.Significand shift significand ∧ significand < 2 * 2 ^ format.fractionBits := by
  have positive : 0 < 2 ^ format.fractionBits := Nat.two_pow_pos _
  have division := Nat.div_add_mod code (2 ^ format.fractionBits)
  have remainder := Nat.mod_lt code positive
  rcases exponent : code / 2 ^ format.fractionBits with _ | shift
  · rw [exponent] at division
    exact ⟨0, code, by omega, ⟨.inl rfl, by omega⟩, by omega⟩
  · rw [exponent, Nat.mul_succ, Nat.mul_comm] at division
    exact ⟨shift, 2 ^ format.fractionBits + code % 2 ^ format.fractionBits, by omega,
      ⟨.inr (by omega), by omega⟩, by omega⟩

/-- Greater codes have greater magnitudes. -/
theorem units_lt_units (less : code < other) : format.units code < format.units other := by
  obtain ⟨shift, significand, rfl, valid, small⟩ := format.exists_significand code
  obtain ⟨shift', significand', rfl, valid', small'⟩ := format.exists_significand other
  rw [units_of_significand valid, units_of_significand valid']
  have low := valid.low
  have low' := valid'.low
  generalize 2 ^ format.fractionBits = unit at *
  rcases Nat.lt_trichotomy shift shift' with shorter | rfl | longer
  · have enough : unit ≤ significand' := by omega
    calc significand * 2 ^ shift < 2 * unit * 2 ^ shift :=
          Nat.mul_lt_mul_of_pos_right small (Nat.two_pow_pos _)
      _ = unit * 2 ^ (shift + 1) := by rw [Nat.pow_succ]; ring
      _ ≤ significand' * 2 ^ shift' :=
          Nat.mul_le_mul enough (Nat.pow_le_pow_right (by decide) shorter)
  · exact Nat.mul_lt_mul_of_pos_right (by omega) (Nat.two_pow_pos _)
  · have enough : unit ≤ significand := by omega
    have more := Nat.mul_le_mul_right unit longer
    rw [Nat.succ_mul] at more
    omega

theorem units_lt_units_iff (format : Format) : format.units code < format.units other ↔ code < other := by
  refine ⟨fun less => ?_, units_lt_units⟩
  rcases Nat.lt_trichotomy code other with lt | rfl | gt
  · exact lt
  · exact absurd less (Nat.lt_irrefl _)
  · exact absurd (units_lt_units gt) (Nat.lt_asymm less)

theorem units_le_units_iff (format : Format) : format.units code ≤ format.units other ↔ code ≤ other := by
  rw [← Nat.not_lt, units_lt_units_iff, Nat.not_lt]

@[simp] theorem units_zero : format.units 0 = 0 := by
  simp [units]

/-- Every significand at every shift is the magnitude of a code. -/
theorem exists_units_eq (format : Format) (significand shift : Nat)
    (high : significand ≤ 2 * 2 ^ format.fractionBits) :
    ∃ code, format.units code = significand * 2 ^ shift := by
  induction shift generalizing significand with
  | zero => exact ⟨0 * 2 ^ format.fractionBits + significand, units_of_significand ⟨.inl rfl, high⟩⟩
  | succ shift ih =>
      rcases Nat.lt_or_ge significand (2 ^ format.fractionBits) with small | large
      · obtain ⟨code, same⟩ := ih (2 * significand) (by omega)
        refine ⟨code, same.trans ?_⟩
        rw [Nat.pow_succ]
        ring
      · exact ⟨_, units_of_significand ⟨.inr large, high⟩⟩

section Infinity

variable (wide : 2 ≤ format.exponentBits)
include wide

/-- Infinity's code has the significand after the greatest one. -/
theorem infinityCode_eq : format.infinityCode =
    (2 ^ format.exponentBits - 3) * 2 ^ format.fractionBits + 2 * 2 ^ format.fractionBits := by
  have exponents := Nat.pow_le_pow_right (n := 2) (by decide) wide
  rw [infinityCode, ← Nat.add_mul]
  congr 1
  omega

theorem units_infinityCode : format.units format.infinityCode =
    2 * 2 ^ format.fractionBits * 2 ^ (2 ^ format.exponentBits - 3) := by
  rw [infinityCode_eq wide]
  exact units_of_significand ⟨.inr (by omega), Nat.le_refl _⟩

end Infinity

/-- A magnitude is a multiple of a shift, or all significands at that shift are greater. -/
theorem dvd_units_or_lt (format : Format) (code shift : Nat) :
    2 ^ shift ∣ format.units code ∨ format.units code < 2 ^ format.fractionBits * 2 ^ shift := by
  obtain ⟨own, significand, rfl, valid, small⟩ := format.exists_significand code
  rw [units_of_significand valid]
  rcases Nat.lt_or_ge own shift with shorter | longer
  · right
    calc significand * 2 ^ own < 2 * 2 ^ format.fractionBits * 2 ^ own :=
          Nat.mul_lt_mul_of_pos_right small (Nat.two_pow_pos _)
      _ = 2 ^ format.fractionBits * 2 ^ (own + 1) := by rw [Nat.pow_succ]; ring
      _ ≤ 2 ^ format.fractionBits * 2 ^ shift :=
          Nat.mul_le_mul_left _ (Nat.pow_le_pow_right (by decide) shorter)
  · exact .inl (Dvd.dvd.mul_left (Nat.pow_dvd_pow 2 longer) _)

section Round

/-- The shift at which a quotient is rounded. -/
def shiftFor (format : Format) (numerator denominator : Nat) : Nat :=
  Nat.log2 (numerator / denominator) - format.fractionBits

/-- A quotient is rounded at the shift at which its significand has as many bits as the format
has, or at the least shift if it has fewer. -/
theorem shiftFor_spec (format : Format) (numerator : Nat) (positive : 0 < denominator) :
    numerator < 2 * 2 ^ format.fractionBits *
        (denominator * 2 ^ format.shiftFor numerator denominator) ∧
      (format.shiftFor numerator denominator = 0 ∨
        2 ^ format.fractionBits * (denominator * 2 ^ format.shiftFor numerator denominator) ≤
          numerator) := by
  rw [shiftFor]
  have above : numerator < (numerator / denominator + 1) * denominator :=
    Nat.lt_mul_of_div_lt (Nat.lt_succ_self _) positive
  have below := Nat.div_mul_le_self numerator denominator
  generalize numerator / denominator = quotient at *
  have split (shift : Nat) : 2 ^ format.fractionBits * (denominator * 2 ^ shift) =
      2 ^ (format.fractionBits + shift) * denominator := by
    rw [Nat.pow_add]
    ring
  constructor
  · calc numerator < (quotient + 1) * denominator := above
      _ ≤ 2 ^ (quotient.log2 + 1) * denominator :=
          Nat.mul_le_mul_right _ (Nat.succ_le_of_lt Nat.lt_log2_self)
      _ ≤ 2 ^ (format.fractionBits + (quotient.log2 - format.fractionBits) + 1) * denominator :=
          Nat.mul_le_mul_right _ (Nat.pow_le_pow_right (by decide) (by omega))
      _ = 2 * (2 ^ format.fractionBits * (denominator * 2 ^ (quotient.log2 - format.fractionBits))) := by
          rw [split, Nat.pow_succ]
          ring
      _ = _ := by rw [Nat.mul_assoc]
  · rcases Nat.le_total quotient.log2 format.fractionBits with short | long
    · exact .inl (Nat.sub_eq_zero_of_le short)
    by_cases zero : quotient = 0
    · subst zero
      exact .inl (by simp)
    right
    rw [split, Nat.add_sub_cancel' long]
    exact Nat.le_trans (Nat.mul_le_mul_right _ (Nat.log2_self_le zero)) below

/-- The significand of a quotient. -/
def significandFor (format : Format) (numerator denominator : Nat) : Nat :=
  roundQuotient numerator (denominator * 2 ^ format.shiftFor numerator denominator)

theorem roundCode_eq (format : Format) (numerator denominator : Nat) :
    format.roundCode numerator denominator =
      min (format.shiftFor numerator denominator * 2 ^ format.fractionBits +
        format.significandFor numerator denominator) format.infinityCode := rfl

theorem significandFor_spec (format : Format) (numerator : Nat) (positive : 0 < denominator) :
    format.Significand (format.shiftFor numerator denominator)
      (format.significandFor numerator denominator) := by
  obtain ⟨high, low⟩ := format.shiftFor_spec numerator positive
  have scaled := Nat.mul_pos positive (Nat.two_pow_pos (format.shiftFor numerator denominator))
  exact ⟨low.imp_right fun large => le_roundQuotient scaled large,
    roundQuotient_le scaled (Nat.le_of_lt high)⟩

/-- Rounding does not pass a code above. -/
theorem roundCode_le (positive : 0 < denominator)
    (le : numerator ≤ format.units code * denominator) :
    format.roundCode numerator denominator ≤ code := by
  obtain ⟨-, low⟩ := format.shiftFor_spec numerator positive
  have valid := format.significandFor_spec numerator positive
  rw [roundCode_eq]
  refine Nat.le_trans (Nat.min_le_left _ _) ?_
  rw [← format.units_le_units_iff, units_of_significand valid, significandFor]
  generalize format.shiftFor numerator denominator = shift at *
  have scaled := Nat.mul_pos positive (Nat.two_pow_pos shift)
  rcases format.dvd_units_or_lt code shift with ⟨multiple, exact⟩ | small
  · rw [exact, Nat.mul_comm (2 ^ shift)]
    refine Nat.mul_le_mul_right _ (roundQuotient_le scaled ?_)
    calc numerator ≤ format.units code * denominator := le
      _ = multiple * (denominator * 2 ^ shift) := by rw [exact]; ring
  · -- At a shift that does not divide the magnitude, the quotient would be greater.
    rcases low with rfl | large
    · have whole : roundQuotient numerator (denominator * 2 ^ 0) ≤ format.units code :=
        roundQuotient_le scaled (by simpa using le)
      simpa using whole
    · have less := Nat.mul_lt_mul_of_pos_right small positive
      rw [Nat.mul_assoc, Nat.mul_comm (2 ^ shift)] at less
      omega

/-- Rounding does not pass a code below. -/
theorem le_roundCode (positive : 0 < denominator) (finite : code ≤ format.infinityCode)
    (le : format.units code * denominator ≤ numerator) :
    code ≤ format.roundCode numerator denominator := by
  obtain ⟨high, -⟩ := format.shiftFor_spec numerator positive
  have valid := format.significandFor_spec numerator positive
  rw [roundCode_eq]
  refine Nat.le_min.mpr ⟨?_, finite⟩
  rw [← format.units_le_units_iff, units_of_significand valid]
  have low := valid.low
  rw [significandFor] at low ⊢
  generalize format.shiftFor numerator denominator = shift at *
  have scaled := Nat.mul_pos positive (Nat.two_pow_pos shift)
  rcases format.dvd_units_or_lt code shift with ⟨multiple, exact⟩ | small
  · rw [exact, Nat.mul_comm (2 ^ shift)]
    refine Nat.mul_le_mul_right _ (le_roundQuotient scaled ?_)
    calc multiple * (denominator * 2 ^ shift) = format.units code * denominator := by rw [exact]; ring
      _ ≤ numerator := le
  · rcases low with rfl | large
    · have whole : format.units code ≤ roundQuotient numerator (denominator * 2 ^ 0) :=
        le_roundQuotient scaled (by simpa using le)
      simpa using whole
    · exact Nat.le_trans (Nat.le_of_lt small) (Nat.mul_le_mul_right _ large)

theorem roundCode_le_infinityCode (format : Format) (numerator denominator : Nat) :
    format.roundCode numerator denominator ≤ format.infinityCode :=
  Nat.min_le_right _ _

/-- A quotient is rounded to infinity from half a step above the greatest magnitude on. -/
theorem roundCode_lt_infinityCode_iff (wide : 2 ≤ format.exponentBits) (positive : 0 < denominator) :
    format.roundCode numerator denominator < format.infinityCode ↔
      2 * numerator < (format.units (format.infinityCode - 1) + format.units format.infinityCode) *
        denominator := by
  have nonzero : 0 < 2 ^ format.fractionBits := Nat.two_pow_pos _
  have infinity := infinityCode_eq wide
  have last : format.Significand (2 ^ format.exponentBits - 3) (2 * 2 ^ format.fractionBits - 1) :=
    ⟨by omega, by omega⟩
  have greatest : format.units (format.infinityCode - 1) =
      (2 * 2 ^ format.fractionBits - 1) * 2 ^ (2 ^ format.exponentBits - 3) := by
    rw [← units_of_significand last, infinity]
    congr 1
    omega
  have infinite := units_infinityCode wide
  generalize 2 ^ format.exponentBits - 3 = top at *
  obtain ⟨high, low⟩ := format.shiftFor_spec numerator positive
  obtain ⟨least, most⟩ := format.significandFor_spec numerator positive
  rw [roundCode_eq, greatest, infinite, min_lt_iff, or_iff_left (Nat.lt_irrefl _), infinity]
  rw [significandFor] at *
  generalize format.shiftFor numerator denominator = shift at *
  generalize 2 ^ format.fractionBits = unit at *
  have scaled := Nat.mul_pos positive (Nat.two_pow_pos top)
  have steps : ((2 * unit - 1) * 2 ^ top + 2 * unit * 2 ^ top) * denominator +
      denominator * 2 ^ top = 4 * unit * (denominator * 2 ^ top) := by
    rw [← Nat.add_mul, show 2 * unit - 1 + 2 * unit = 4 * unit - 1 by omega, Nat.mul_assoc,
      Nat.mul_comm (2 ^ top), ← Nat.succ_mul, show (4 * unit - 1).succ = 4 * unit by omega]
  generalize ((2 * unit - 1) * 2 ^ top + 2 * unit * 2 ^ top) * denominator = middle at *
  -- Of the shifts, only the greatest one leaves the question to the rounding of the significand.
  rcases Nat.lt_trichotomy shift top with shorter | rfl | longer
  · have codes := Nat.mul_le_mul_right unit (Nat.succ_le_of_lt shorter)
    have powers : 2 * (denominator * 2 ^ shift) ≤ denominator * 2 ^ top := by
      rw [Nat.mul_left_comm, ← Nat.pow_succ']
      exact Nat.mul_le_mul_left _ (Nat.pow_le_pow_right (by decide) shorter)
    have multiples := Nat.mul_le_mul_left unit powers
    have least := Nat.le_mul_of_pos_left (denominator * 2 ^ top) nonzero
    rw [Nat.succ_mul] at codes
    rw [Nat.mul_left_comm] at multiples
    rw [Nat.mul_assoc] at high steps
    exact iff_of_true (by omega) (by omega)
  · rw [Nat.add_lt_add_iff_left, roundQuotient_lt_iff scaled]
    omega
  · have codes := Nat.mul_le_mul_right unit (Nat.succ_le_of_lt longer)
    have powers : 2 * (denominator * 2 ^ top) ≤ denominator * 2 ^ shift := by
      rw [Nat.mul_left_comm, ← Nat.pow_succ']
      exact Nat.mul_le_mul_left _ (Nat.pow_le_pow_right (by decide) longer)
    have multiples := Nat.mul_le_mul_left unit powers
    rw [Nat.succ_mul] at codes
    rw [Nat.mul_left_comm] at multiples
    rw [Nat.mul_assoc] at steps
    exact iff_of_false (by omega) (by omega)

end Round

section Root

variable {square : Nat}

theorem squareRoot_spec (n : Nat) :
    squareRoot n * squareRoot n ≤ n ∧ n < (squareRoot n + 1) * (squareRoot n + 1) := by
  induction n using Nat.strongRecOn with
  | ind n ih =>
      rw [squareRoot]
      split_ifs with zero
      · simp [zero]
      obtain ⟨below, above⟩ := ih (n / 4) (by omega)
      generalize squareRoot (n / 4) = root at *
      have even : 2 * root * (2 * root) = 4 * (root * root) := by ring
      have next : (2 * root + 1 + 1) * (2 * root + 1 + 1) = 4 * ((root + 1) * (root + 1)) := by ring
      dsimp only
      split_ifs with greater <;> omega

theorem le_squareRoot_iff {n root : Nat} : root ≤ squareRoot n ↔ root * root ≤ n := by
  obtain ⟨below, above⟩ := squareRoot_spec n
  constructor
  · exact fun le => Nat.le_trans (Nat.mul_self_le_mul_self le) below
  · intro le
    refine Nat.le_of_lt_succ (Nat.lt_of_not_le fun greater => ?_)
    exact absurd (Nat.lt_of_lt_of_le above (Nat.mul_self_le_mul_self greater)) (Nat.not_lt.mpr le)

/-- The shift at which a square root is rounded. -/
def rootShiftFor (format : Format) (square : Nat) : Nat :=
  Nat.log2 (squareRoot square) - format.fractionBits

/-- The significand of a square root. -/
def rootSignificandFor (format : Format) (square : Nat) : Nat :=
  let quotient := squareRoot square / 2 ^ format.rootShiftFor square
  let half := (2 * quotient + 1) * 2 ^ format.rootShiftFor square
  if half * half < 4 * square then quotient + 1 else quotient

theorem roundRootCode_eq (format : Format) (square : Nat) :
    format.roundRootCode square =
      min (format.rootShiftFor square * 2 ^ format.fractionBits + format.rootSignificandFor square)
        format.infinityCode := rfl

variable {bound : Nat}

/-- Rounding a root does not pass an integer above. -/
theorem rootSignificandFor_le
    (le : square ≤ bound * 2 ^ format.rootShiftFor square * (bound * 2 ^ format.rootShiftFor square)) :
    format.rootSignificandFor square ≤ bound := by
  have nonzero : 0 < 2 ^ format.rootShiftFor square := Nat.two_pow_pos _
  rw [rootSignificandFor]
  generalize 2 ^ format.rootShiftFor square = unit at *
  have below := le_squareRoot_iff.mp (Nat.div_mul_le_self (squareRoot square) unit)
  generalize squareRoot square / unit = quotient at *
  have most : quotient ≤ bound := by
    refine Nat.le_of_not_lt fun greater => ?_
    have more := Nat.mul_lt_mul_of_pos_right greater nonzero
    exact absurd (Nat.mul_self_lt_mul_self more) (by omega)
  rcases Nat.lt_or_eq_of_le most with less | rfl
  · split_ifs <;> omega
  · have doubled : 4 * square ≤ (2 * quotient + 1) * unit * ((2 * quotient + 1) * unit) :=
      calc 4 * square ≤ 4 * (quotient * unit * (quotient * unit)) := Nat.mul_le_mul_left 4 le
        _ = 2 * quotient * unit * (2 * quotient * unit) := by ring
        _ ≤ _ := Nat.mul_self_le_mul_self (Nat.mul_le_mul_right unit (Nat.le_succ _))
    rw [if_neg (by omega)]

/-- Rounding a root does not pass an integer below. -/
theorem le_rootSignificandFor
    (le : bound * 2 ^ format.rootShiftFor square * (bound * 2 ^ format.rootShiftFor square) ≤ square) :
    bound ≤ format.rootSignificandFor square := by
  have whole := (Nat.le_div_iff_mul_le (Nat.two_pow_pos _)).mpr (le_squareRoot_iff.mpr le)
  rw [rootSignificandFor]
  split_ifs <;> omega

theorem rootSignificandFor_spec (format : Format) (square : Nat) :
    format.Significand (format.rootShiftFor square) (format.rootSignificandFor square) ∧
      (format.rootShiftFor square = 0 ∨
        2 ^ format.fractionBits * 2 ^ format.rootShiftFor square ≤ squareRoot square) := by
  have split (shift : Nat) : 2 ^ format.fractionBits * 2 ^ shift = 2 ^ (format.fractionBits + shift) :=
    (Nat.pow_add 2 _ _).symm
  have low : format.rootShiftFor square = 0 ∨
      2 ^ format.fractionBits * 2 ^ format.rootShiftFor square ≤ squareRoot square := by
    rw [split, rootShiftFor]
    rcases Nat.le_total (squareRoot square).log2 format.fractionBits with short | long
    · exact .inl (Nat.sub_eq_zero_of_le short)
    by_cases zero : squareRoot square = 0
    · exact .inl (by simp [zero])
    · right
      rw [Nat.add_sub_cancel' long]
      exact Nat.log2_self_le zero
  refine ⟨⟨low.imp_right fun large => le_rootSignificandFor (le_squareRoot_iff.mp large), ?_⟩, low⟩
  refine rootSignificandFor_le ?_
  have above : squareRoot square + 1 ≤ 2 * 2 ^ format.fractionBits * 2 ^ format.rootShiftFor square := by
    rw [Nat.mul_assoc, split, ← Nat.pow_succ']
    refine Nat.le_trans (Nat.succ_le_of_lt Nat.lt_log2_self)
      (Nat.pow_le_pow_right (by decide) ?_)
    rw [rootShiftFor]
    omega
  exact Nat.le_trans (Nat.le_of_lt (squareRoot_spec square).2) (Nat.mul_self_le_mul_self above)

/-- Rounding a root does not pass a code above. -/
theorem roundRootCode_le (le : square ≤ format.units code * format.units code) :
    format.roundRootCode square ≤ code := by
  obtain ⟨valid, low⟩ := rootSignificandFor_spec format square
  rw [roundRootCode_eq]
  refine Nat.le_trans (Nat.min_le_left _ _) ?_
  rw [← format.units_le_units_iff, units_of_significand valid]
  rcases format.dvd_units_or_lt code (format.rootShiftFor square) with
    ⟨multiple, exact⟩ | small
  · rw [exact, Nat.mul_comm (2 ^ _)] at le ⊢
    exact Nat.mul_le_mul_right _ (rootSignificandFor_le le)
  · rcases low with least | large
    · have whole : format.rootSignificandFor square ≤ format.units code :=
        rootSignificandFor_le (by simpa [least] using le)
      simpa [least] using whole
    · have greater := Nat.mul_self_lt_mul_self (Nat.lt_of_lt_of_le small large)
      have below := (squareRoot_spec square).1
      omega

/-- Rounding a root does not pass a code below. -/
theorem le_roundRootCode (finite : code ≤ format.infinityCode)
    (le : format.units code * format.units code ≤ square) :
    code ≤ format.roundRootCode square := by
  obtain ⟨valid, low⟩ := rootSignificandFor_spec format square
  rw [roundRootCode_eq]
  refine Nat.le_min.mpr ⟨?_, finite⟩
  rw [← format.units_le_units_iff, units_of_significand valid]
  rcases format.dvd_units_or_lt code (format.rootShiftFor square) with
    ⟨multiple, exact⟩ | small
  · rw [exact, Nat.mul_comm (2 ^ _)] at le ⊢
    exact Nat.mul_le_mul_right _ (le_rootSignificandFor le)
  · rcases valid.low with least | large
    · have whole : format.units code ≤ format.rootSignificandFor square :=
        le_rootSignificandFor (by simpa [least] using le)
      simpa [least] using whole
    · exact Nat.le_trans (Nat.le_of_lt small) (Nat.mul_le_mul_right _ large)

end Root

end Format

end SceneForge.Binary
