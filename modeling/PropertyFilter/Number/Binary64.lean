/-!
Binary floating-point numbers of 64 bits. A finite one is a whole number of units, a unit being
the smallest positive number of the format (2 to the power −1074), so that comparing is comparing
integers and rounding is rounding a quotient of natural numbers to the nearest admissible number
of units, a tie going to the even side.
-/

set_option autoImplicit false

namespace PropertyFilter

/-- How a binary format places its numbers: the bits of a significand, the unit as a negative
power of two, and the power of two below which every number of units lies. -/
structure BinaryFormat where
  precision : Nat
  unitExponent : Nat
  width : Nat

namespace BinaryFormat

def binary64 : BinaryFormat := ⟨53, 1074, 2098⟩

def binary32 : BinaryFormat := ⟨24, 149, 277⟩

/-- The number of units in one. -/
def unitsInOne (format : BinaryFormat) : Nat := Nat.pow 2 format.unitExponent

/-- The distance between neighbouring numbers of the format around a number of units, in units. -/
def spacing (format : BinaryFormat) (units : Nat) : Nat :=
  Nat.pow 2 (units.log2 + 1 - format.precision)

/-- The whole number nearest to a quotient, the even one of two that are equally near. -/
def roundQuotient (num den : Nat) : Nat :=
  let quotient := num / den
  let rest := num % den
  if 2 * rest < den then quotient
  else if den < 2 * rest then quotient + 1
  else quotient + quotient % 2

/-- The number of units nearest to a quotient, or none if no number of the format is. -/
def round? (format : BinaryFormat) (num den : Nat) : Option Nat :=
  let scaled := num * format.unitsInOne
  let gap := format.spacing (scaled / den)
  let units := roundQuotient scaled (den * gap) * gap
  if units.log2 < format.width then some units else none

end BinaryFormat

/-- The numbers of units that a finite number can hold. -/
def Representable (units : Nat) : Prop :=
  BinaryFormat.binary64.spacing units ∣ units ∧ units.log2 < BinaryFormat.binary64.width

instance (units : Nat) : Decidable (Representable units) :=
  inferInstanceAs (Decidable (_ ∧ _))

inductive Binary64
  | nan
  | infinite (negative : Bool)
  | finite (negative : Bool) (units : Nat) (representable : Representable units)
  deriving DecidableEq

namespace Binary64

theorem representable_zero : Representable 0 := by decide

def zero (negative : Bool) : Binary64 := .finite negative 0 representable_zero

/-- The number with so many units, infinite if the format has none. -/
def ofUnits (negative : Bool) (units : Nat) : Binary64 :=
  if h : Representable units then .finite negative units h else .infinite negative

/-- The number with so many units, or an infinite one if there is no number of units. -/
def ofRounded (negative : Bool) : Option Nat → Binary64
  | some units => ofUnits negative units
  | none => .infinite negative

/-- The number nearest to a quotient of natural numbers. -/
def ofQuotient (negative : Bool) (num den : Nat) : Binary64 :=
  ofRounded negative (BinaryFormat.binary64.round? num den)

def ofInt (i : Int) : Binary64 := ofQuotient (i < 0) i.natAbs 1

/-- The quotient of natural numbers that a coefficient and a power of ten stand for. -/
def decimalQuotient (coefficient : Nat) (exponent : Int) : Nat × Nat :=
  if 0 ≤ exponent then (coefficient * Nat.pow 10 exponent.toNat, 1)
  else (coefficient, Nat.pow 10 exponent.natAbs)

/-- The number nearest to `coefficient · 10 ^ exponent`. Powers of ten far outside the format are
decided by their size: from `10 ^ 310` on all is infinite, and below `10 ^ (-340)` all is zero. -/
def ofDecimal (negative : Bool) (coefficient : Nat) (exponent : Int) : Binary64 :=
  if coefficient = 0 then zero negative
  else if 310 < exponent then .infinite negative
  else if exponent + coefficient.log2 < -340 then zero negative
  else
    let quotient := decimalQuotient coefficient exponent
    ofQuotient negative quotient.1 quotient.2

/-- The number of 32 bits nearest to `coefficient · 10 ^ exponent`, held in 64 bits. -/
def ofDecimalSingle (negative : Bool) (coefficient : Nat) (exponent : Int) : Binary64 :=
  if coefficient = 0 then zero negative
  else if 310 < exponent then .infinite negative
  else if exponent + coefficient.log2 < -340 then zero negative
  else
    let quotient := decimalQuotient coefficient exponent
    match BinaryFormat.binary32.round? quotient.1 quotient.2 with
    | some units =>
      ofUnits negative
        (units * (BinaryFormat.binary64.unitsInOne / BinaryFormat.binary32.unitsInOne))
    | none => .infinite negative

def isFinite : Binary64 → Bool
  | .finite .. => true
  | _ => false

/-- A number with its sign changed. -/
def neg : Binary64 → Binary64
  | .nan => .nan
  | .infinite negative => .infinite !negative
  | .finite negative units h => .finite (!negative) units h

/-- The place of a number on the line of units, the infinities just past all finite numbers; both
zeros are at zero and what is no number has no place. -/
def rank? : Binary64 → Option Int
  | .nan => none
  | .infinite negative =>
    let bound : Nat := Nat.pow 2 BinaryFormat.binary64.width
    some (if negative then -bound else bound)
  | .finite negative units _ => some (if negative then -units else units)

/-- The order of the line; nothing is ordered with what is no number. -/
def compare (x y : Binary64) : Option Ordering :=
  match x.rank?, y.rank? with
  | some i, some j => some (Ord.compare i j)
  | _, _ => none

/-- Whether two numbers are at one place of the line. -/
def same (x y : Binary64) : Bool := x.compare y == some .eq

/-- The product, rounded. -/
def mul : Binary64 → Binary64 → Binary64
  | .finite s a _, .finite t b _ =>
    ofQuotient (s != t) (a * b)
      (BinaryFormat.binary64.unitsInOne * BinaryFormat.binary64.unitsInOne)
  | .nan, _ | _, .nan => .nan
  | .infinite s, .finite t b _ => if b = 0 then .nan else .infinite (s != t)
  | .finite s a _, .infinite t => if a = 0 then .nan else .infinite (s != t)
  | .infinite s, .infinite t => .infinite (s != t)

/-- The quotient, rounded. -/
def div : Binary64 → Binary64 → Binary64
  | .finite s a _, .finite t b _ =>
    if b = 0 then if a = 0 then .nan else .infinite (s != t)
    else ofQuotient (s != t) a b
  | .nan, _ | _, .nan => .nan
  | .infinite s, .finite t .. => .infinite (s != t)
  | .finite s .., .infinite t => zero (s != t)
  | .infinite _, .infinite _ => .nan

theorem compare_self_of_isFinite (x : Binary64) (h : x.isFinite = true) :
    x.compare x = some .eq := by
  cases x with
  | finite negative units _ => simp [compare, rank?]
  | nan => simp [isFinite] at h
  | infinite _ => simp [isFinite] at h

end Binary64

end PropertyFilter
