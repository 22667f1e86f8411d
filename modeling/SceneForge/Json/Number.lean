import SceneForge.Decimal.Reading
import SceneForge.Decimal.Shortest

/-!
# JSON numbers

A number literal is an integer if it has neither point nor exponent and fits 64
bits, and a double otherwise. Doubles are not the nearest to the literal: digits
are collected into a 64-bit significand while they fit, and the result is scaled
once by a power of ten that is itself a double.
-/

namespace SceneForge.Json

open SceneForge.Binary

/-- Which kind of problem a text has: it ends too early, it is malformed, or it is
well-formed so far and not of the expected shape. -/
inductive Category where
  | ended
  | malformed
  | mismatch
  deriving DecidableEq

/-- A JSON number: an integer from `-2 ^ 63` to `2 ^ 64 - 1`, or a double. -/
inductive Number where
  | integer (value : Int)
  | real (value : Double)
  deriving DecidableEq

namespace Number

/-- The number as a double, rounded to nearest. -/
def toDouble : Number → Double
  | .integer value => .ofInt value
  | .real value => value

/-- The number as a natural number, if it is an integer. -/
def toNat? : Number → Option Nat
  | .integer (.ofNat value) => some value
  | _ => none

/-- Positional notation reaches from `0.00001` below `10 ^ 16`, a whole double keeps
its `.0`, and an exponent has a sign. -/
def layout : Decimal.Layout := ⟨.toEven, some (-5, 15), true, true⟩

/-- The literal that is written for a number. -/
def text : Number → String
  | .integer value => toString value
  | .real value => Decimal.patternText .double layout value.pattern

end Number

/-- The parts of a number literal. -/
structure Literal where
  negative : Bool
  whole : List Nat
  fraction : List Nat
  /-- Sign and digits of the exponent, if there is one. -/
  exponent : Option (Bool × List Nat)
  /-- Whether there is a point. -/
  pointed : Bool

namespace Literal

/-- A significand that fits 64 bits, and the digits that did not fit any more. -/
structure Collected where
  significand : Nat
  dropped : List Nat

/-- Collects digits behind a significand until the next one would overflow. -/
def collect (significand : Nat) : (digits : List Nat) → Collected
  | [] => ⟨significand, []⟩
  | digit :: rest =>
      if 10 * significand + digit < 2 ^ 64 then collect (10 * significand + digit) rest
      else ⟨significand, digit :: rest⟩

/-- The double nearest to a power of ten. -/
def powerOfTen (exponent : Nat) : Double := Decimal.toDouble false ⟨1, exponent⟩

/-- A significand scaled by a power of ten, in steps of at most `10 ^ 308`. A result
beyond the range of doubles has no value. -/
def scale (x : Double) (exponent : Int) : Option Double :=
  if 308 < exponent then if x.isZero then some x else none
  else if 0 ≤ exponent then
    let scaled := x * powerOfTen exponent.toNat
    if scaled.isFinite then some scaled else none
  else if h : exponent < -308 then
    if x.isZero then some x else scale (x / powerOfTen 308) (exponent + 308)
  else some (x / powerOfTen exponent.natAbs)
termination_by exponent.natAbs
decreasing_by omega

/-- The value of a literal that is not an integer. An exponent beyond 31 bits
decides alone, unless the significand is zero. -/
def real (literal : Literal) (collected : Collected) (fraction : Collected) : Except Category Number :=
  let kept := literal.fraction.length - fraction.dropped.length
  let base : Int := collected.dropped.length - kept
  let magnitude : Except Category Double :=
    match literal.exponent with
    | none => ((scale (.ofInt fraction.significand) base).map .ok).getD (.error .malformed)
    | some (negative, digits) =>
        let written := Decimal.ofDigits digits
        if 2 ^ 31 ≤ written then
          if fraction.significand = 0 ∨ negative then .ok 0 else .error .malformed
        else
          let exponent := if negative then base - written else base + written
          ((scale (.ofInt fraction.significand) exponent).map .ok).getD (.error .malformed)
  magnitude.map fun x => .real (if literal.negative then -x else x)

/-- The value of a literal; `malformed` if it is beyond the range of doubles. -/
def value (literal : Literal) : Except Category Number :=
  let collected := collect 0 literal.whole
  let fraction := collect collected.significand literal.fraction
  if literal.pointed || literal.exponent.isSome || !collected.dropped.isEmpty then
    real literal collected fraction
  else if !literal.negative then .ok (.integer collected.significand)
  else if collected.significand = 0 ∨ 2 ^ 63 < collected.significand then
    .ok (.real (-Double.ofInt collected.significand))
  else .ok (.integer (-collected.significand))

end Literal

end SceneForge.Json
