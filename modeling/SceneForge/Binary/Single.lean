import SceneForge.Binary.Format

/-!
# Single precision

The 32-bit numbers that a compiled scene holds. A number is its bit pattern, so
that whatever was read from a buffer is written back bit for bit, NaN payloads
included.
-/

namespace SceneForge.Binary

/-- A 32-bit floating-point number, as its bit pattern. -/
structure Single where
  bits : UInt32
  deriving DecidableEq, Inhabited

namespace Single

/-- Sign and magnitude code of a number. -/
def pattern (x : Single) : Pattern :=
  ⟨decide (2 ^ 31 ≤ x.bits.toNat), x.bits.toNat % 2 ^ 31⟩

/-- The number with the given sign and magnitude code. -/
def ofPattern (p : Pattern) : Single :=
  ⟨UInt32.ofNat ((if p.negative then 2 ^ 31 else 0) + p.code)⟩

/-- The number nearest to an integer. -/
def ofInt (n : Int) : Single :=
  ofPattern (.round .single (n * (2 ^ Format.single.unitExponent : Nat)) 1 false)

instance (n : Nat) : OfNat Single n := ⟨ofInt n⟩

instance : Neg Single := ⟨fun x => ofPattern x.pattern.neg⟩
instance : Add Single := ⟨fun x y => ofPattern (.add .single x.pattern y.pattern)⟩
instance : Sub Single := ⟨fun x y => ofPattern (.sub .single x.pattern y.pattern)⟩
instance : Mul Single := ⟨fun x y => ofPattern (.mul .single x.pattern y.pattern)⟩
instance : Div Single := ⟨fun x y => ofPattern (.div .single x.pattern y.pattern)⟩

/-- Square root. -/
def sqrt (x : Single) : Single := ofPattern (.sqrt .single x.pattern)

/-- Whether the number is neither an infinity nor NaN. -/
def isFinite (x : Single) : Bool := x.pattern.isFinite .single

/-- Numerical order. -/
def lt (x y : Single) : Bool := x.pattern.lt .single y.pattern

/-- Numerical order or equality. -/
def le (x y : Single) : Bool := x.pattern.le .single y.pattern

/-- Whether the number is a zero of either sign. -/
def isZero (x : Single) : Bool := decide (x.pattern.code = 0)

/-- The number nearest to `π / 180`. -/
def degree : Single := ⟨0x3c8efa35⟩

/-- An angle in degrees as radians. -/
def toRadians (x : Single) : Single := x * degree

/-- The number nearest to `π / 2`. -/
def halfPi : Single := ⟨0x3fc90fdb⟩

/-- The distance from one to the next number. -/
def epsilon : Single := ⟨0x34000000⟩

end Single

end SceneForge.Binary
