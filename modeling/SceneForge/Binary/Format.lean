import SceneForge.Power

/-!
# Binary interchange formats

Floating-point numbers of any width, computed exactly. A format has a number of
fraction bits and of exponent bits. Below the sign, a bit pattern is its
*magnitude code*, a natural number; codes are ordered as the magnitudes they
stand for. The magnitude itself is counted in *units*, the format's least positive
number, so that every finite magnitude is a natural number and every operation is
one exact quotient followed by one rounding (`roundCode`, to the nearest code, a
tie going to the even one).
-/

namespace SceneForge.Binary

/-- The shape of a binary floating-point format. -/
structure Format where
  /-- Bits after the binary point of a normalised significand. -/
  fractionBits : Nat
  /-- Bits of the exponent field. -/
  exponentBits : Nat

namespace Format

/-- The 32-bit format: 23 fraction bits under 8 exponent bits. -/
def single : Format := ⟨23, 8⟩

/-- The 64-bit format: 52 fraction bits under 11 exponent bits. -/
def double : Format := ⟨52, 11⟩

/-- One unit is `2 ^ -unitExponent`. -/
def unitExponent (format : Format) : Nat :=
  2 ^ (format.exponentBits - 1) + format.fractionBits - 2

/-- The code of infinity; every finite magnitude has a smaller code. -/
def infinityCode (format : Format) : Nat :=
  (2 ^ format.exponentBits - 1) * 2 ^ format.fractionBits

/-- How many units the magnitude with the given code is. -/
def units (format : Format) (code : Nat) : Nat :=
  let exponent := code / 2 ^ format.fractionBits
  if exponent ≤ 1 then code
  else (2 ^ format.fractionBits + code % 2 ^ format.fractionBits) * 2 ^ (exponent - 1)

end Format

/-- The quotient rounded to the nearest integer, a half going to the even one. -/
def roundQuotient (numerator denominator : Nat) : Nat :=
  let quotient := numerator / denominator
  let doubled := 2 * (numerator % denominator)
  if doubled < denominator then quotient
  else if denominator < doubled then quotient + 1
  else quotient + quotient % 2

/-- The integer part of the square root. -/
def squareRoot (n : Nat) : Nat :=
  if h : n = 0 then 0
  else
    let root := 2 * squareRoot (n / 4)
    if (root + 1) * (root + 1) ≤ n then root + 1 else root
termination_by n
decreasing_by omega

namespace Format

/-- The code nearest to `numerator / denominator` units; too large a number gets
infinity's code. -/
def roundCode (format : Format) (numerator denominator : Nat) : Nat :=
  let shift := Nat.log2 (numerator / denominator) - format.fractionBits
  min (shift * 2 ^ format.fractionBits + roundQuotient numerator (denominator * 2 ^ shift))
    format.infinityCode

/-- The code nearest to the square root of `square`, which counts squared units. -/
def roundRootCode (format : Format) (square : Nat) : Nat :=
  let root := squareRoot square
  let shift := Nat.log2 root - format.fractionBits
  let quotient := root / 2 ^ shift
  let half := (2 * quotient + 1) * 2 ^ shift
  min (shift * 2 ^ format.fractionBits +
      if half * half < 4 * square then quotient + 1 else quotient)
    format.infinityCode

end Format

/-- A bit pattern taken apart: its sign and its magnitude code. -/
structure Pattern where
  negative : Bool
  code : Nat
  deriving DecidableEq

namespace Pattern

variable (format : Format)

/-- Codes above infinity's are not numbers. -/
def isNaN (x : Pattern) : Bool := decide (format.infinityCode < x.code)

/-- Whether the pattern is an infinity of either sign. -/
def isInfinite (x : Pattern) : Bool := decide (x.code = format.infinityCode)

/-- Whether the pattern is a number other than the infinities. -/
def isFinite (x : Pattern) : Bool := decide (x.code < format.infinityCode)

/-- The quiet pattern that an operation without a numerical result gives. -/
def notANumber : Pattern := ⟨false, format.infinityCode + 2 ^ (format.fractionBits - 1)⟩

/-- A finite pattern's value in units. -/
def signedUnits (x : Pattern) : Int :=
  if x.negative then -(format.units x.code : Int) else format.units x.code

/-- The pattern of the opposite sign. -/
def neg (x : Pattern) : Pattern := { x with negative := !x.negative }

/-- The pattern nearest to `numerator / denominator` units, where an exact zero
takes the sign `zeroNegative`. -/
def round (numerator : Int) (denominator : Nat) (zeroNegative : Bool) : Pattern :=
  if numerator = 0 then ⟨zeroNegative, 0⟩
  else ⟨decide (numerator < 0), format.roundCode numerator.natAbs denominator⟩

/-- Sum. Opposite infinities have none; an exact zero is negative only if both
terms are. -/
def add (x y : Pattern) : Pattern :=
  if x.isNaN format || y.isNaN format then notANumber format
  else if x.isInfinite format then
    if y.isInfinite format && x.negative != y.negative then notANumber format else x
  else if y.isInfinite format then y
  else round format (x.signedUnits format + y.signedUnits format) 1 (x.negative && y.negative)

/-- Difference. -/
def sub (x y : Pattern) : Pattern := add format x y.neg

/-- Product. Zero times infinity has none. -/
def mul (x y : Pattern) : Pattern :=
  let negative := x.negative != y.negative
  if x.isNaN format || y.isNaN format then notANumber format
  else if x.isInfinite format || y.isInfinite format then
    if x.code = 0 || y.code = 0 then notANumber format else ⟨negative, format.infinityCode⟩
  else
    ⟨negative,
      format.roundCode (format.units x.code * format.units y.code) (2 ^ format.unitExponent)⟩

/-- Quotient. Zero by zero and infinity by infinity have none. -/
def div (x y : Pattern) : Pattern :=
  let negative := x.negative != y.negative
  if x.isNaN format || y.isNaN format then notANumber format
  else if x.isInfinite format then
    if y.isInfinite format then notANumber format else ⟨negative, format.infinityCode⟩
  else if y.isInfinite format then ⟨negative, 0⟩
  else if y.code = 0 then
    if x.code = 0 then notANumber format else ⟨negative, format.infinityCode⟩
  else
    ⟨negative,
      format.roundCode (format.units x.code * 2 ^ format.unitExponent) (format.units y.code)⟩

/-- Square root. Only negative zero keeps its sign, other negative numbers have
none. -/
def sqrt (x : Pattern) : Pattern :=
  if x.isNaN format then notANumber format
  else if x.code = 0 then x
  else if x.negative then notANumber format
  else if x.isInfinite format then x
  else ⟨false, format.roundRootCode (format.units x.code * 2 ^ format.unitExponent)⟩

/-- `x * y + z` of finite numbers with one rounding. -/
def fusedMulAdd (x y z : Pattern) : Pattern :=
  let scale : Nat := 2 ^ format.unitExponent
  round format
    (x.signedUnits format * y.signedUnits format + z.signedUnits format * (scale : Int))
    scale ((x.negative != y.negative) && z.negative)

/-- Numerical order; nothing is less than or greater than what is not a number. -/
def lt (x y : Pattern) : Bool :=
  !x.isNaN format && !y.isNaN format &&
    decide ((if x.negative then -(x.code : Int) else x.code) <
      (if y.negative then -(y.code : Int) else y.code))

/-- Numerical order or equality; both zeros are equal. -/
def le (x y : Pattern) : Bool :=
  !x.isNaN format && !y.isNaN format &&
    decide ((if x.negative then -(x.code : Int) else x.code) ≤
      (if y.negative then -(y.code : Int) else y.code))

/-- The nearest number of another format. -/
def convert (source target : Format) (x : Pattern) : Pattern :=
  if x.isNaN source then notANumber target
  else if x.isInfinite source then ⟨x.negative, target.infinityCode⟩
  else
    ⟨x.negative,
      target.roundCode (source.units x.code * 2 ^ target.unitExponent) (2 ^ source.unitExponent)⟩

end Pattern

end SceneForge.Binary
