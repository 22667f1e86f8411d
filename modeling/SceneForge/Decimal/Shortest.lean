import SceneForge.Binary.Double
import SceneForge.Decimal

/-!
# Shortest decimals

The shortest decimal number that reads back as a given floating-point number. The
numbers that round to one pattern form an interval between two half-way points;
for each digit count the two neighbours of the value on that decimal grid are
tried, and the first grid with one inside the interval wins. Of two neighbours
inside, the nearer is taken; of two equally near ones it is a matter of layout.
-/

namespace SceneForge.Decimal

open SceneForge.Binary

/-- The magnitudes that round to one code, in half units. -/
structure Interval where
  low : Nat
  value : Nat
  high : Nat
  /-- Whether the end points themselves round to the code. -/
  closed : Bool

/-- The interval of a positive finite code. -/
def Interval.ofCode (format : Format) (code : Nat) : Interval where
  low := format.units (code - 1) + format.units code
  value := 2 * format.units code
  high := format.units code + format.units (code + 1)
  closed := code % 2 = 0

/-- The greatest `k` with `10 ^ k ≤ numerator / denominator`, for a positive number
that is at least `10 ^ -fuel`. -/
def floorLogTen (numerator denominator : Nat) : (fuel : Nat) → Int
  | 0 => 0
  | fuel + 1 =>
      if denominator ≤ numerator then (digits (numerator / denominator)).length - 1
      else floorLogTen (numerator * 10) denominator fuel - 1

/-- The one of two neighbouring significands that a tie goes to. -/
def Tie.choose (lower : Nat) : Tie → Nat
  | toEven => lower + lower % 2
  | up => lower + 1

/-- The neighbour of the interval's value on the grid of multiples of
`10 ^ exponent` that lies inside the interval; `halves` half units make one. -/
def onGrid? (tie : Tie) (interval : Interval) (halves : Nat) (exponent : Int) : Option Decimal :=
  let up := 10 ^ exponent.toNat * halves
  let down := 10 ^ (-exponent).toNat
  let inside (significand : Nat) : Bool :=
    let point := significand * up
    if interval.closed then interval.low * down ≤ point && point ≤ interval.high * down
    else interval.low * down < point && point < interval.high * down
  let lower := interval.value * down / up
  let doubled := 2 * (interval.value * down % up)
  match inside lower, inside (lower + 1) with
  | false, false => none
  | true, false => some ⟨lower, exponent⟩
  | false, true => some ⟨lower + 1, exponent⟩
  | true, true =>
      if doubled < up then some ⟨lower, exponent⟩
      else if up < doubled then some ⟨lower + 1, exponent⟩
      else some ⟨tie.choose lower, exponent⟩

/-- The same number with one digit, if it is ten times a power of ten. Of the numbers
that a search of grids finds, only this one on the first grid has a zero at its end. -/
def dropZero (d : Decimal) : Decimal := if d.significand = 10 then ⟨1, d.exponent + 1⟩ else d

/-- The shortest decimal number that rounds to a finite code. Seventeen digits are
enough for either format. -/
def shortest (tie : Tie) (format : Format) (code : Nat) : Decimal :=
  if code = 0 then ⟨0, 0⟩
  else
    let interval := Interval.ofCode format code
    let halves := 2 ^ (format.unitExponent + 1)
    let leading := floorLogTen interval.value halves (format.unitExponent + 2)
    let grids := (List.range 17).map fun (extra : Nat) => leading - extra
    dropZero ((grids.findSome? (onGrid? tie interval halves)).getD ⟨0, 0⟩)

/-- A floating-point pattern in a layout, with the spellings of what is no finite
number. -/
def patternText (format : Format) (layout : Layout) (x : Pattern) : String :=
  if x.isNaN format then "NaN"
  else
    let sign := if x.negative then ['-'] else []
    let magnitude :=
      if x.isInfinite format then ['i', 'n', 'f'] else (shortest layout.tie format x.code).text layout
    String.ofList (sign ++ magnitude)

end SceneForge.Decimal
