import SceneForge.Binary.Double

/-!
# Sine and cosine in single precision

Both are computed in double precision and narrowed once. An argument is brought
into the quadrant around zero: small ones stand already, moderate ones lose a
multiple of `π / 2` in one fused step, large ones are multiplied by as many bits
of `2 / π` as their exponent calls for. Two short polynomials then give sine and
cosine there, and the quadrant selects polynomial and sign.
-/

namespace SceneForge.Binary.Trigonometry

/-- Coefficients of the cosine polynomial, for even powers from the constant up. -/
def cosineCoefficients : Fin 5 → Double
  | 0 => ⟨0x3ff0000000000000⟩
  | 1 => ⟨0xbfdffffffd0c621c⟩
  | 2 => ⟨0x3fa55553e1068f19⟩
  | 3 => ⟨0xbf56c087e89a359d⟩
  | 4 => ⟨0x3ef99343027bf8c3⟩

/-- Coefficients of the sine polynomial, for odd powers from the third up. -/
def sineCoefficients : Fin 3 → Double
  | 0 => ⟨0xbfc555545995a603⟩
  | 1 => ⟨0x3f81107605230bc4⟩
  | 2 => ⟨0xbf2994eb3774cf24⟩

/-- `2 / π`, scaled by `2 ^ 24`. -/
def scaledInverse : Double := ⟨0x41645f306dc9c883⟩

/-- `π / 2`. -/
def quarterTurn : Double := ⟨0x3ff921fb54442d18⟩

/-- `π / 2`, scaled by `2 ^ -62`. -/
def fractionUnit : Double := ⟨0x3c1921fb54442d18⟩

/-- The first 192 bits after the binary point of `2 / π`. -/
def inverseBits : Nat := 0xa2f9836e4e441529fc2757d1f534ddc0db6295993c439041

/-- The 32 bits of `2 / π` that end at byte `index`. -/
def inverseWindow (index : Nat) : Nat := inverseBits / 2 ^ (8 * (23 - index)) % 2 ^ 32

/-- The sine of a reduced argument `x` with square `square`. -/
def sinePolynomial (x square : Double) : Double :=
  let cube := x * square
  let high := Double.fusedMulAdd square (sineCoefficients 2) (sineCoefficients 1)
  let low := Double.fusedMulAdd cube (sineCoefficients 0) x
  Double.fusedMulAdd (cube * square) high low

/-- The cosine of a reduced argument with square `square`, negated on request. -/
def cosinePolynomial (square : Double) (negated : Bool) : Double :=
  let coefficient (i : Fin 5) : Double :=
    if negated then -cosineCoefficients i else cosineCoefficients i
  let fourth := square * square
  let high := Double.fusedMulAdd square (coefficient 4) (coefficient 3)
  let low := Double.fusedMulAdd square (coefficient 1) (coefficient 0)
  let middle := Double.fusedMulAdd fourth (coefficient 2) low
  Double.fusedMulAdd (fourth * square) high middle

/-- An argument in the quadrant around zero, and how many quarter turns it was away. -/
structure Reduced where
  argument : Double
  quarterTurns : Int

/-- Reduction of moderate arguments by one multiple of `π / 2`. -/
def reduceModerate (x : Double) : Reduced :=
  let turns := ((x * scaledInverse).truncate + 0x800000) / 2 ^ 24
  ⟨Double.fusedMulAdd (-Double.ofInt turns) quarterTurn x, turns⟩

/-- Reduction of the magnitude of a large argument, in 64-bit fixed point with two
integer bits. -/
def reduceLarge (x : Single) : Reduced :=
  let bits := x.pattern.code
  let index := bits / 2 ^ 26 % 16
  let significand := (bits % 2 ^ 23 + 2 ^ 23) * 2 ^ (bits / 2 ^ 23 % 8) % 2 ^ 32
  let top := significand * inverseWindow index % 2 ^ 32
  let middle := significand * inverseWindow (index + 4)
  let bottom := significand * inverseWindow (index + 8)
  let product : Nat := (bottom / 2 ^ 32 + top * 2 ^ 32 + middle) % 2 ^ 64
  let turns : Nat := (product + 2 ^ 61) % 2 ^ 64 / 2 ^ 62
  let fraction := Int.bmod ((product : Int) - (turns * 2 ^ 62 : Nat)) (2 ^ 64)
  ⟨Double.ofInt fraction * fractionUnit, turns⟩

/-- The sine or cosine polynomial at a reduced argument, with the sign that its
quadrant calls for. -/
def atQuadrant (argument : Double) (quadrant : Int) (cosine : Bool) : Single :=
  let square := argument * argument
  let result :=
    if cosine then cosinePolynomial square (decide (2 ≤ quadrant % 4))
    else sinePolynomial (if (quadrant + 1) % 4 ≤ 1 then argument else -argument) square
  result.toSingle

/-- The twelve top bits below the sign, by which arguments are classified. -/
def rank (x : Single) : Nat := x.pattern.code / 2 ^ 20

/-- Cosine if `cosine` is set, sine otherwise. An odd number of quarter turns
exchanges the polynomials; a large negative argument is reduced by its magnitude
and turned once more. -/
def evaluate (x : Single) (cosine : Bool) : Single :=
  if rank x < rank ⟨0x3f490fdb⟩ then
    if rank x < rank ⟨0x39800000⟩ then if cosine then 1 else x
    else atQuadrant (Double.ofSingle x) 0 cosine
  else if rank x < rank ⟨0x42f00000⟩ then
    let reduced := reduceModerate (Double.ofSingle x)
    atQuadrant reduced.argument reduced.quarterTurns
      (decide (reduced.quarterTurns % 2 = 1) != cosine)
  else if rank x < rank ⟨0x7f800000⟩ then
    let reduced := reduceLarge x
    let quadrant := if x.pattern.negative then reduced.quarterTurns + 1 else reduced.quarterTurns
    atQuadrant reduced.argument quadrant (decide (reduced.quarterTurns % 2 = 1) != cosine)
  else .ofPattern (.notANumber .single)

end SceneForge.Binary.Trigonometry

namespace SceneForge.Binary.Single

/-- The sine of an angle in radians. -/
def sin (x : Single) : Single := Trigonometry.evaluate x false

/-- The cosine of an angle in radians. -/
def cos (x : Single) : Single := Trigonometry.evaluate x true

end SceneForge.Binary.Single
