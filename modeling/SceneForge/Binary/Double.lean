import SceneForge.Binary.Single

/-!
# Double precision

The 64-bit numbers in which authored numbers are read before they are narrowed.
-/

namespace SceneForge.Binary

/-- A 64-bit floating-point number, as its bit pattern. -/
structure Double where
  bits : UInt64
  deriving DecidableEq, Inhabited

namespace Double

/-- Sign and magnitude code of a number. -/
def pattern (x : Double) : Pattern :=
  ⟨decide (2 ^ 63 ≤ x.bits.toNat), x.bits.toNat % 2 ^ 63⟩

/-- The number with the given sign and magnitude code. -/
def ofPattern (p : Pattern) : Double :=
  ⟨UInt64.ofNat ((if p.negative then 2 ^ 63 else 0) + p.code)⟩

/-- The number nearest to an integer. -/
def ofInt (n : Int) : Double :=
  ofPattern (.round .double (n * (2 ^ Format.double.unitExponent : Nat)) 1 false)

instance (n : Nat) : OfNat Double n := ⟨ofInt n⟩

instance : Neg Double := ⟨fun x => ofPattern x.pattern.neg⟩
instance : Add Double := ⟨fun x y => ofPattern (.add .double x.pattern y.pattern)⟩
instance : Mul Double := ⟨fun x y => ofPattern (.mul .double x.pattern y.pattern)⟩
instance : Div Double := ⟨fun x y => ofPattern (.div .double x.pattern y.pattern)⟩

/-- `x * y + z` of finite numbers with one rounding. -/
def fusedMulAdd (x y z : Double) : Double :=
  ofPattern (.fusedMulAdd .double x.pattern y.pattern z.pattern)

/-- Whether the number is neither an infinity nor NaN. -/
def isFinite (x : Double) : Bool := x.pattern.isFinite .double

/-- Whether the number is a zero of either sign. -/
def isZero (x : Double) : Bool := decide (x.pattern.code = 0)

/-- Whether a finite number has no fraction part. -/
def isInteger (x : Double) : Bool :=
  decide (Format.double.units x.pattern.code % 2 ^ Format.double.unitExponent = 0)

/-- A finite number without its fraction part. -/
def truncate (x : Double) : Int :=
  let magnitude := Format.double.units x.pattern.code / 2 ^ Format.double.unitExponent
  if x.pattern.negative then -(magnitude : Int) else magnitude

/-- The nearest single-precision number. -/
def toSingle (x : Double) : Single := .ofPattern (.convert .double .single x.pattern)

/-- The same number in double precision. -/
def ofSingle (x : Single) : Double := ofPattern (.convert .single .double x.pattern)

end Double

end SceneForge.Binary
