/-!
# Decimal numbers and their layout

A decimal number is a significand and a power of ten. This module holds the number
and the ways of writing numbers down: which of two equally near decimal numbers stands
for a number, where positional notation ends, whether a whole number keeps a fraction
part, and whether a positive exponent shows its sign.
-/

namespace SceneForge

/-- The number `significand * 10 ^ exponent`. -/
structure Decimal where
  significand : Nat
  exponent : Int
  deriving DecidableEq

namespace Decimal

/-- Decimal digits of a natural number, most significant first. -/
def digits (n : Nat) : List Char := Nat.toDigits 10 n

/-- Which of two equally near numbers is taken: the one with an even last digit, or
the greater one. -/
inductive Tie where
  | toEven
  | up
  deriving DecidableEq

/-- How a number is written in decimal. -/
structure Layout where
  /-- The choice between two shortest decimal numbers that are equally near. -/
  tie : Tie
  /-- Least and greatest exponent of the leading digit that positional notation
  covers; without bounds it covers all. -/
  positional : Option (Int × Int)
  /-- Whether a whole number in positional notation ends in `.0`. -/
  wholePoint : Bool
  /-- Whether a positive exponent is written with its sign. -/
  plusSign : Bool

/-- The power of ten of the leading digit. -/
def leadingExponent (d : Decimal) : Int := (digits d.significand).length - 1 + d.exponent

/-- Digits with a point among them and no exponent. -/
def positionalText (layout : Layout) (d : Decimal) : List Char :=
  let written := digits d.significand
  if 0 ≤ d.exponent then
    written ++ List.replicate d.exponent.toNat '0' ++ if layout.wholePoint then ['.', '0'] else []
  else
    let fraction := (-d.exponent).toNat
    if fraction < written.length then
      written.take (written.length - fraction) ++ '.' :: written.drop (written.length - fraction)
    else '0' :: '.' :: (List.replicate (fraction - written.length) '0' ++ written)

/-- One digit, the rest after a point, and the exponent. -/
def exponentText (layout : Layout) (d : Decimal) : List Char :=
  let exponent := d.leadingExponent
  let mantissa := match digits d.significand with
    | [] => []
    | [digit] => [digit]
    | digit :: rest => digit :: '.' :: rest
  let sign := if exponent < 0 then ['-'] else if layout.plusSign then ['+'] else []
  mantissa ++ 'e' :: sign ++ digits exponent.natAbs

/-- A decimal number in the given layout. -/
def text (layout : Layout) (d : Decimal) : List Char :=
  match layout.positional with
  | none => positionalText layout d
  | some (least, greatest) =>
      if least ≤ d.leadingExponent ∧ d.leadingExponent ≤ greatest then positionalText layout d
      else exponentText layout d

end Decimal

end SceneForge
