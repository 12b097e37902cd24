import PropertyFilter.Number.Binary64
import PropertyFilter.Number.Numeral

/-!
Decimal text of floating-point numbers: the fewest significant digits that read back to the same
number and, of the texts with that many, the one nearest to it. A layout says which of two equally
near ones is taken, which magnitudes are written with a plain point, and how the others write their
power of ten.
-/

set_option autoImplicit false

namespace PropertyFilter

/-- The number `coefficient · 10 ^ exponent`. -/
structure Decimal where
  coefficient : Nat
  exponent : Int
  deriving DecidableEq

namespace Decimal

/-- The same number without zeros at the end of its coefficient. -/
def reduce (coefficient : Nat) (exponent : Int) : Decimal :=
  if h : coefficient ≠ 0 ∧ coefficient % 10 = 0 then reduce (coefficient / 10) (exponent + 1)
  else ⟨coefficient, exponent⟩
termination_by coefficient

/-- Whether a decimal rounds to so many units. -/
def readsAs (d : Decimal) (units : Nat) : Bool :=
  let quotient := Binary64.decimalQuotient d.coefficient d.exponent
  BinaryFormat.binary64.round? quotient.1 quotient.2 == some units

/-- A number of units, divided by a power of ten. -/
def scaled (units : Nat) (exponent : Int) : Nat × Nat :=
  if 0 ≤ exponent then (units, BinaryFormat.binary64.unitsInOne * Nat.pow 10 exponent.toNat)
  else (units * Nat.pow 10 exponent.natAbs, BinaryFormat.binary64.unitsInOne)

/-- Which of two decimals next to each other is taken for a number halfway between them. -/
inductive Tie
  | upper
  /-- The one with the even coefficient. -/
  | even
  deriving DecidableEq

/-- Whether the upper neighbour is taken for a number halfway between two, the lower one with this
coefficient. -/
def Tie.takesUpper (lower : Nat) : Tie → Bool
  | upper => true
  | even => lower % 2 == 1

/-- The one of two decimals next to each other that is nearer to a number `past` parts of `whole`
beyond the lower one, of those that read back as it. -/
def nearer? (tie : Tie) (past whole : Nat) (down up : Decimal) :
    (downReads upReads : Bool) → Option Decimal
  | true, true =>
    let takesUp := whole < 2 * past ∨
      (whole = 2 * past ∧ tie.takesUpper down.coefficient = true)
    some (if takesUp then up else down)
  | true, false => some down
  | false, true => some up
  | false, false => none

/-- The decimal with the given power of ten that is nearest to a number of units, of those that
read back as it. -/
def onGrid? (tie : Tie) (units : Nat) (exponent : Int) : Option Decimal :=
  let (num, den) := scaled units exponent
  let down : Decimal := ⟨num / den, exponent⟩
  let up : Decimal := ⟨num / den + 1, exponent⟩
  nearer? tie (num % den) den down up (down.readsAs units) (up.readsAs units)

/-- The power of ten of the first significant digit. The first estimate, from the binary
logarithm, is at most one too small. -/
def leadingExponent (units : Nat) : Int :=
  let estimate := ((units.log2 : Int) - BinaryFormat.binary64.unitExponent) * 30103 / 100000
  let (num, den) := scaled units (estimate + 1)
  if den ≤ num then estimate + 1 else estimate

/-- The number that the units stand for, in full. -/
def exact (units : Nat) : Decimal :=
  ⟨units * Nat.pow 5 BinaryFormat.binary64.unitExponent, -BinaryFormat.binary64.unitExponent⟩

/-- The shortest decimal that reads back as a positive number of units. Seventeen digits suffice;
what no grid up to there holds is written in full. -/
def shortest (tie : Tie) (units : Nat) : Decimal :=
  let leading := leadingExponent units
  let found := (List.range 17).findSome? fun (further : Nat) ↦
    onGrid? tie units (leading - further)
  let d := found.getD (exact units)
  reduce d.coefficient d.exponent

/-- How a decimal is chosen and laid out: the choice between two that are equally near, the powers
of ten of the first digit for which a plain point is used, and whether other exponents show a plus
sign. -/
structure Layout where
  tie : Tie
  leastPlain : Int
  greatestPlain : Int
  plusSign : Bool

/-- The digits with a point after the first, then the exponent. -/
def scientific (layout : Layout) (ds : List Char) (power : Int) : List Char :=
  let point := if ds.length ≤ 1 then ds else ds.take 1 ++ '.' :: ds.drop 1
  let sign := if power < 0 then ['-'] else if layout.plusSign then ['+'] else []
  point ++ 'e' :: sign ++ Numeral.digits power.natAbs

/-- The digits with a point in its place; at least one digit stands on each side of it. -/
def plain (ds : List Char) (exponent : Int) : List Char :=
  if 0 ≤ exponent then ds ++ List.replicate exponent.toNat '0' ++ ['.', '0']
  else
    let places := exponent.natAbs
    if places < ds.length then ds.take (ds.length - places) ++ '.' :: ds.drop (ds.length - places)
    else ['0', '.'] ++ List.replicate (places - ds.length) '0' ++ ds

def digitsText (layout : Layout) (d : Decimal) : List Char :=
  let ds := Numeral.digits d.coefficient
  let power := d.exponent + ds.length - 1
  if layout.leastPlain ≤ power ∧ power ≤ layout.greatestPlain then plain ds d.exponent
  else scientific layout ds power

end Decimal

namespace Binary64

/-- A number as text. Zero has a digit on each side of its point, and a sign if it is negative. -/
def text (layout : Decimal.Layout) : Binary64 → List Char
  | .nan => "NaN".toList
  | .infinite negative => if negative then "-inf".toList else "inf".toList
  | .finite negative units _ =>
    let magnitude :=
      if units = 0 then ['0', '.', '0'] else (Decimal.shortest layout.tie units).digitsText layout
    if negative then '-' :: magnitude else magnitude

/-- Numbers in filters are rounded up if two texts are equally near, and have a plain point from a
ten-thousandth up to below ten to the sixteenth. -/
def literalLayout : Decimal.Layout := ⟨.upper, -4, 15, false⟩

end Binary64

end PropertyFilter
