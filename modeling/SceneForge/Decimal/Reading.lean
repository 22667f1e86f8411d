import SceneForge.Binary.Double
import SceneForge.Decimal

/-!
# Reading decimal numbers

A decimal spelling becomes the double nearest to it. A spelling is an optional
sign before digits with an optional point among or beside them and an optional
exponent; the words for infinity and for what is not a number count in any case of
letters. Whole numbers have a reader of their own, with a bound.
-/

namespace SceneForge.Decimal

open SceneForge.Binary

/-- The double nearest to a decimal number. Exponents far outside the format's
range are decided without computing the power of ten. -/
def toDouble (negative : Bool) (d : Decimal) : Double :=
  let format := Format.double
  let code :=
    if d.significand = 0 ∨ d.leadingExponent < -400 then 0
    else if 400 < d.leadingExponent then format.infinityCode
    else
      format.roundCode
        (d.significand * 10 ^ d.exponent.toNat * 2 ^ format.unitExponent)
        (10 ^ (-d.exponent).toNat)
  .ofPattern ⟨negative, code⟩

/-- The value of an ASCII digit. -/
def digit? (c : Char) : Option Nat :=
  if '0' ≤ c ∧ c ≤ '9' then some (c.toNat - '0'.toNat) else none

/-- The digits that a text starts with, and the rest. -/
def takeDigits : List Char → List Nat × List Char
  | [] => ([], [])
  | c :: rest =>
      match digit? c with
      | none => ([], c :: rest)
      | some d =>
          let (more, remaining) := takeDigits rest
          (d :: more, remaining)

/-- The number that digits spell, most significant first. -/
def ofDigits (digits : List Nat) : Nat := digits.foldl (fun n d => 10 * n + d) 0

/-- An exponent part that ends the text; an absent one is zero. -/
def exponentPart? : List Char → Option Int
  | [] => some 0
  | mark :: rest =>
      if mark = 'e' ∨ mark = 'E' then
        let (negative, rest) := match rest with
          | '+' :: rest => (false, rest)
          | '-' :: rest => (true, rest)
          | rest => (false, rest)
        match takeDigits rest with
        | ([], _) => none
        | (digits, []) =>
            let magnitude : Int := ofDigits digits
            some (if negative then -magnitude else magnitude)
        | (_, _ :: _) => none
      else none

/-- An unsigned decimal spelling. -/
def ofText? (text : List Char) : Option Decimal :=
  let (whole, rest) := takeDigits text
  let (fraction, rest) := match rest with
    | '.' :: rest => takeDigits rest
    | rest => ([], rest)
  if whole.isEmpty && fraction.isEmpty then none
  else
    (exponentPart? rest).map fun exponent =>
      ⟨ofDigits (whole ++ fraction), exponent - fraction.length⟩

/-- The double that a signed spelling names. -/
def double? (text : String) : Option Double :=
  let (negative, magnitude) := match text.toList with
    | '+' :: rest => (false, rest)
    | '-' :: rest => (true, rest)
    | rest => (false, rest)
  let word := String.ofList (magnitude.map Char.toLower)
  if word = "inf" ∨ word = "infinity" then
    some (.ofPattern ⟨negative, Format.double.infinityCode⟩)
  else if word = "nan" then some (.ofPattern (.notANumber .double))
  else (ofText? magnitude).map (toDouble negative)

/-- The natural number below `bound` that a text spells: digits after at most one
plus sign. -/
def natBelow? (bound : Nat) (text : String) : Option Nat :=
  let magnitude := match text.toList with
    | '+' :: rest => rest
    | rest => rest
  match takeDigits magnitude with
  | ([], _) => none
  | (digits, []) => if ofDigits digits < bound then some (ofDigits digits) else none
  | (_, _ :: _) => none

end SceneForge.Decimal
