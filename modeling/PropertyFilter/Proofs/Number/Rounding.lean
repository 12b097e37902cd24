import Mathlib.Algebra.Order.Field.Rat
import Mathlib.Tactic.NormNum
import PropertyFilter.Number.Binary64

/-!
# Rounding of quotients

Rounding is a function of the quotient and not of the numbers that it is a quotient of
(`round?_congr`), it gives an admissible number of units back (`round?_of_representable`), and
decimals far outside the format are rounded to nothing or to zero (`lt_of_round?`,
`round?_of_small`). The last two facts are why powers of ten may be decided by their size alone:
`Binary64.ofDecimal` is the rounding of its decimal wherever that gives a number of units other than
zero (`ofDecimal_of_round?`).
-/

set_option autoImplicit false

namespace PropertyFilter

namespace BinaryFormat

theorem unitsInOne_pos (format : BinaryFormat) : 0 < format.unitsInOne :=
  Nat.pow_pos (by decide)

theorem spacing_pos (format : BinaryFormat) (units : Nat) : 0 < format.spacing units :=
  Nat.pow_pos (by decide)

/-! ### Quotients that are equal -/

theorem div_congr {num den num' den' : Nat} (hden : 0 < den) (hden' : 0 < den')
    (h : num * den' = num' * den) : num / den = num' / den' := by
  rw [← Nat.mul_div_mul_right num den hden', h, Nat.mul_comm den den',
    Nat.mul_div_mul_right num' den' hden]

theorem roundQuotient_mul_right (num den : Nat) {k : Nat} (hk : 0 < k) :
    roundQuotient (num * k) (den * k) = roundQuotient num den := by
  have hless : 2 * (num % den * k) < den * k ↔ 2 * (num % den) < den := by
    rw [← Nat.mul_assoc, Nat.mul_lt_mul_right hk]
  have hmore : den * k < 2 * (num % den * k) ↔ den < 2 * (num % den) := by
    rw [← Nat.mul_assoc, Nat.mul_lt_mul_right hk]
  simp only [roundQuotient, Nat.mul_div_mul_right num den hk, Nat.mul_mod_mul_right, hless, hmore]

theorem roundQuotient_congr {num den num' den' : Nat} (hden : 0 < den) (hden' : 0 < den')
    (h : num * den' = num' * den) : roundQuotient num den = roundQuotient num' den' := by
  rw [← roundQuotient_mul_right num den hden', h, Nat.mul_comm den den',
    roundQuotient_mul_right num' den' hden]

/-- Equal quotients are rounded alike. -/
theorem round?_congr (format : BinaryFormat) {num den num' den' : Nat} (hden : 0 < den)
    (hden' : 0 < den') (h : num * den' = num' * den) :
    format.round? num den = format.round? num' den' := by
  have hscaled : num * format.unitsInOne * den' = num' * format.unitsInOne * den := by
    rw [Nat.mul_right_comm, h, Nat.mul_right_comm]
  have hgap := format.spacing_pos (num' * format.unitsInOne / den')
  simp only [round?, div_congr hden hden' hscaled]
  rw [roundQuotient_congr (Nat.mul_pos hden hgap) (Nat.mul_pos hden' hgap)]
  rw [← Nat.mul_assoc, hscaled, Nat.mul_assoc]

/-! ### Admissible numbers of units -/

theorem roundQuotient_mul_self (quotient : Nat) {den : Nat} (hden : 0 < den) :
    roundQuotient (quotient * den) den = quotient := by
  simp [roundQuotient, Nat.mul_div_cancel _ hden, hden]

/-- A quotient that is an admissible number of units is rounded to it. -/
theorem round?_of_representable {units num den : Nat} (hunits : Representable units)
    (hden : 0 < den) (h : num * binary64.unitsInOne = units * den) :
    binary64.round? num den = some units := by
  obtain ⟨⟨quotient, hquotient⟩, hwidth⟩ := hunits
  have hgap := binary64.spacing_pos units
  have hrounded : roundQuotient (units * den) (den * binary64.spacing units) = quotient := by
    have hproduct : units * den = quotient * (den * binary64.spacing units) := by
      rw [Nat.mul_left_comm, Nat.mul_comm quotient, ← hquotient, Nat.mul_comm]
    rw [hproduct, roundQuotient_mul_self _ (Nat.mul_pos hden hgap)]
  simp only [round?, h, Nat.mul_div_cancel _ hden, hrounded]
  rw [Nat.mul_comm quotient, ← hquotient, if_pos hwidth]

/-! ### Quotients outside the format -/

theorem div_le_roundQuotient (num den : Nat) : num / den ≤ roundQuotient num den := by
  simp only [roundQuotient]
  split_ifs <;> omega

/-- The spacing divides the power of two that a number of units begins with. -/
theorem pow_log2_le_round (units : Nat) (hunits : units ≠ 0) :
    2 ^ units.log2 ≤ units / binary64.spacing units * binary64.spacing units := by
  have hle : units.log2 + 1 - 53 ≤ units.log2 := by omega
  have hsplit : 2 ^ units.log2 = 2 ^ (units.log2 - (units.log2 + 1 - 53)) *
      binary64.spacing units := by
    rw [spacing, Nat.pow_eq, ← Nat.pow_add]
    congr 1
    exact (Nat.sub_add_cancel hle).symm
  rw [hsplit]
  refine Nat.mul_le_mul_right _ ?_
  rw [Nat.le_div_iff_mul_le (binary64.spacing_pos units), ← hsplit]
  exact Nat.log2_self_le hunits

/-- What is rounded to a number of units lies below the width of the format. -/
theorem lt_of_round? {num den units : Nat} (hden : 0 < den)
    (h : binary64.round? num den = some units) : num < den * 2 ^ 1024 := by
  simp only [round?] at h
  generalize hscaled : num * binary64.unitsInOne = scaled at h
  split at h
  · next hwidth =>
    have hquotient : scaled / den < 2 ^ binary64.width := by
      by_cases hzero : scaled / den = 0
      · exact hzero.trans_lt (pow_pos (by decide) _)
      · generalize hgap : binary64.spacing (scaled / den) = gap at hwidth
        have hlow : 2 ^ (scaled / den).log2 ≤ roundQuotient scaled (den * gap) * gap := by
          have hround := pow_log2_le_round (scaled / den) hzero
          rw [hgap, Nat.div_div_eq_div_mul] at hround
          exact hround.trans (Nat.mul_le_mul_right _ (div_le_roundQuotient _ _))
        have hrounded : roundQuotient scaled (den * gap) * gap ≠ 0 :=
          ((pow_pos (by decide) _).trans_le hlow).ne'
        exact (Nat.log2_lt hzero).mp (((Nat.le_log2 hrounded).mpr hlow).trans_lt hwidth)
    have hwide : 2 ^ binary64.width = 2 ^ 1024 * binary64.unitsInOne := by decide +kernel
    rw [hwide, Nat.div_lt_iff_lt_mul hden, ← hscaled, Nat.mul_right_comm] at hquotient
    rw [Nat.mul_comm den]
    exact Nat.lt_of_mul_lt_mul_right hquotient
  · cases h

/-- A quotient of less than half a unit is rounded to zero. -/
theorem round?_of_small {num den : Nat} (h : 2 * (num * binary64.unitsInOne) < den) :
    binary64.round? num den = some 0 := by
  have hquotient : num * binary64.unitsInOne / den = 0 := Nat.div_eq_of_lt (by omega)
  have hgap : binary64.spacing 0 = 1 := by decide
  have hrounded : roundQuotient (num * binary64.unitsInOne) den = 0 := by
    rw [roundQuotient, Nat.mod_eq_of_lt (by omega), if_pos h, hquotient]
  simp only [round?, hquotient, hgap, hrounded, Nat.mul_one, Nat.log2_zero]
  rfl

end BinaryFormat

namespace Binary64

open BinaryFormat

theorem decimalQuotient_snd_pos (coefficient : Nat) (exponent : Int) :
    0 < (decimalQuotient coefficient exponent).2 := by
  unfold decimalQuotient
  split
  · exact Nat.one_pos
  · exact Nat.pow_pos (by decide)

theorem decimalQuotient_neg (coefficient places : Nat) :
    decimalQuotient coefficient (-(places : Int)) = (coefficient, 10 ^ places) := by
  cases places with
  | zero => simp [decimalQuotient]
  | succ places =>
    have hnegative : ¬ (0 : Int) ≤ -((places + 1 : Nat) : Int) := by omega
    rw [decimalQuotient, if_neg hnegative, Int.natAbs_neg, Int.natAbs_natCast]
    rfl

theorem decimalQuotient_cast (coefficient : Nat) (exponent : Int) :
    ((decimalQuotient coefficient exponent).1 : ℚ) / (decimalQuotient coefficient exponent).2 =
      coefficient * 10 ^ exponent := by
  unfold decimalQuotient
  split
  · next h =>
    obtain ⟨n, rfl⟩ := Int.eq_ofNat_of_zero_le h
    simp
  · next h =>
    obtain ⟨n, hn⟩ := Int.eq_ofNat_of_zero_le (show 0 ≤ -exponent by omega)
    obtain rfl : exponent = -(n : Int) := by omega
    simp [div_eq_mul_inv]

/-- Decimals of one value are rounded alike. -/
theorem round?_decimalQuotient_congr {coefficient coefficient' : Nat} {exponent exponent' : Int}
    (h : (coefficient : ℚ) * 10 ^ exponent = coefficient' * 10 ^ exponent') :
    binary64.round? (decimalQuotient coefficient exponent).1
        (decimalQuotient coefficient exponent).2 =
      binary64.round? (decimalQuotient coefficient' exponent').1
        (decimalQuotient coefficient' exponent').2 := by
  have hden := decimalQuotient_snd_pos coefficient exponent
  have hden' := decimalQuotient_snd_pos coefficient' exponent'
  refine round?_congr binary64 hden hden' ?_
  rw [← decimalQuotient_cast, ← decimalQuotient_cast, div_eq_div_iff
    (Nat.cast_ne_zero.mpr hden.ne') (Nat.cast_ne_zero.mpr hden'.ne')] at h
  exact_mod_cast h

/-- A power of ten above all the format is not rounded to any number of units. -/
theorem exponent_le_of_round? {coefficient units : Nat} {exponent : Int}
    (hcoefficient : coefficient ≠ 0)
    (h : binary64.round? (decimalQuotient coefficient exponent).1
      (decimalQuotient coefficient exponent).2 = some units) : exponent ≤ 310 := by
  by_contra hlarge
  have hexponent : 311 ≤ exponent.toNat := by omega
  have hlt := lt_of_round? (decimalQuotient_snd_pos coefficient exponent) h
  rw [decimalQuotient, if_pos (by omega), Nat.one_mul, Nat.pow_eq] at hlt
  have hpower : 10 ^ 311 ≤ coefficient * 10 ^ exponent.toNat :=
    (pow_le_pow_right₀ (by decide) hexponent).trans
      (Nat.le_mul_of_pos_left _ (Nat.pos_of_ne_zero hcoefficient))
  have hwide : 2 ^ 1024 < 10 ^ 311 := by decide +kernel
  exact lt_irrefl _ (hlt.trans (hwide.trans_le hpower))

/-- A coefficient with a power of ten below all the format is rounded to zero. -/
theorem round?_of_exponent_lt {coefficient : Nat} {exponent : Int}
    (h : exponent + coefficient.log2 < -340) :
    binary64.round? (decimalQuotient coefficient exponent).1
      (decimalQuotient coefficient exponent).2 = some 0 := by
  refine round?_of_small ?_
  rw [decimalQuotient, if_neg (by omega), Nat.pow_eq]
  obtain ⟨more, hmore⟩ : ∃ more, exponent.natAbs = 340 + (coefficient.log2 + 1 + more) :=
    ⟨exponent.natAbs - 340 - (coefficient.log2 + 1), by omega⟩
  have hcoefficient : coefficient < 10 ^ (coefficient.log2 + 1 + more) :=
    (Nat.lt_log2_self (n := coefficient)).trans_le
      ((Nat.pow_le_pow_left (by decide) _).trans (Nat.pow_le_pow_right (by decide) (by omega)))
  have hunit : 2 * binary64.unitsInOne ≤ 10 ^ 340 := by decide +kernel
  have hpositive := unitsInOne_pos binary64
  rw [hmore, pow_add]
  generalize 10 ^ 340 = tens at hunit
  calc 2 * (coefficient * binary64.unitsInOne)
      = 2 * binary64.unitsInOne * coefficient := by rw [Nat.mul_comm coefficient, Nat.mul_assoc]
    _ ≤ tens * coefficient := Nat.mul_le_mul_right _ hunit
    _ < tens * 10 ^ (coefficient.log2 + 1 + more) :=
        Nat.mul_lt_mul_of_pos_left hcoefficient (by omega)

theorem round?_decimalQuotient_zero (exponent : Int) :
    binary64.round? (decimalQuotient 0 exponent).1 (decimalQuotient 0 exponent).2 = some 0 := by
  have hnum : (decimalQuotient 0 exponent).1 = 0 := by
    unfold decimalQuotient
    split <;> simp
  refine round?_of_small ?_
  rw [hnum, Nat.zero_mul, Nat.mul_zero]
  exact decimalQuotient_snd_pos 0 exponent

theorem ofQuotient_of_round? (negative : Bool) {num den units : Nat}
    (h : binary64.round? num den = some units) :
    ofQuotient negative num den = ofUnits negative units := by
  rw [ofQuotient, h, ofRounded]

/-- Where rounding gives a number of units other than zero, sizes decide nothing. -/
theorem ofDecimal_of_round? (negative : Bool) {coefficient units : Nat} {exponent : Int}
    (hunits : units ≠ 0)
    (h : binary64.round? (decimalQuotient coefficient exponent).1
      (decimalQuotient coefficient exponent).2 = some units) :
    ofDecimal negative coefficient exponent = ofUnits negative units := by
  have hsmall : ¬ exponent + coefficient.log2 < -340 := by
    intro hlt
    rw [round?_of_exponent_lt hlt, Option.some.injEq] at h
    exact hunits h.symm
  have hcoefficient : coefficient ≠ 0 := by
    rintro rfl
    rw [round?_decimalQuotient_zero, Option.some.injEq] at h
    exact hunits h.symm
  have hlarge : ¬ 310 < exponent := by
    have hle := exponent_le_of_round? hcoefficient h
    omega
  rw [ofDecimal, if_neg hcoefficient, if_neg hlarge, if_neg hsmall]
  exact ofQuotient_of_round? negative h

end Binary64

end PropertyFilter
