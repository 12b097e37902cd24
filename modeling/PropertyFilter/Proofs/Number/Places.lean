import PropertyFilter.Number.Wide
import PropertyFilter.Proofs.Number.Rounding

/-!
# Integers on the line of floating-point numbers

An integer is compared with floating-point numbers as the number that it is rounded to. This module
says where on the line of units that number lies (`Binary64.place`). An integer of at most 53 bits
lies where it is (`place_of_natAbs_le`), so that no two of these are rounded to one number.
-/

set_option autoImplicit false

namespace PropertyFilter

namespace BinaryFormat

theorem log2_mul_unitsInOne (format : BinaryFormat) {n : Nat} (hn : n ≠ 0) :
    (n * format.unitsInOne).log2 = n.log2 + format.unitExponent := by
  have hunits : format.unitsInOne = 2 ^ format.unitExponent := rfl
  have hproduct : n * format.unitsInOne ≠ 0 := Nat.mul_ne_zero hn (unitsInOne_pos format).ne'
  rw [Nat.log2_eq_iff hproduct, hunits]
  constructor
  · rw [Nat.pow_add]
    exact Nat.mul_le_mul_right _ (Nat.log2_self_le hn)
  · rw [Nat.add_right_comm, Nat.pow_add]
    exact Nat.mul_lt_mul_of_pos_right Nat.lt_log2_self (Nat.two_pow_pos _)

theorem pow_dvd_unitsInOne (format : BinaryFormat) {exponent : Nat}
    (h : exponent ≤ format.unitExponent) : Nat.pow 2 exponent ∣ format.unitsInOne :=
  Nat.pow_dvd_pow 2 h

theorem pow_width_pos (format : BinaryFormat) : 0 < Nat.pow 2 format.width := Nat.two_pow_pos _

theorem lt_pow_width (format : BinaryFormat) {units : Nat} (h : units.log2 < format.width) :
    units < Nat.pow 2 format.width := by
  by_cases hzero : units = 0
  · rw [hzero]
    exact pow_width_pos format
  · exact (Nat.log2_lt hzero).mp h

end BinaryFormat

namespace Binary64

open BinaryFormat

/-- Numbers are compared by their places. -/
theorem compare_of_rank? {x y : Binary64} {r s : Int} (hx : x.rank? = some r)
    (hy : y.rank? = some s) : x.compare y = some (Ord.compare r s) := by
  rw [compare, hx, hy]

/-- How far from zero the places of the infinite numbers are. -/
def horizon : Int := (Nat.pow 2 binary64.width : Nat)

theorem horizon_pos : 0 < horizon := by
  rw [horizon]
  exact Int.natCast_pos.mpr (pow_width_pos binary64)

theorem rank?_infinite (negative : Bool) :
    (infinite negative).rank? = some (if negative then -horizon else horizon) := rfl

/-- Finite numbers have a place between those of the infinite ones. -/
theorem exists_rank?_of_isFinite {x : Binary64} (h : x.isFinite = true) :
    ∃ r, x.rank? = some r ∧ -horizon < r ∧ r < horizon := by
  cases x with
  | nan => cases h
  | infinite negative => cases h
  | finite negative units hunits =>
    have hless : (units : Int) < horizon := Int.ofNat_lt.mpr (lt_pow_width binary64 hunits.2)
    refine ⟨_, rfl, ?_⟩
    generalize horizon = bound at hless
    cases negative with
    | false => exact ⟨by simp only [Bool.false_eq_true, if_false]; omega, hless⟩
    | true => exact ⟨Int.neg_lt_neg hless, by simp only [if_true]; omega⟩

/-! ### The place of an integer -/

/-- The place on the line of the number that an integer is rounded to. -/
def place (i : Int) : Int := (ofWide i).rank?.getD 0

/-- Rounding gives a number with the sign of the integer. -/
theorem ofWide_cases (i : Int) :
    ofWide i = .infinite (i < 0) ∨ ∃ units h, ofWide i = .finite (i < 0) units h := by
  unfold ofWide ofQuotient
  cases binary64.round? (Wide.jammed i.natAbs) 1 with
  | none => exact .inl rfl
  | some units =>
    rw [ofRounded, ofUnits]
    split
    · next h => exact .inr ⟨units, h, rfl⟩
    · exact .inl rfl

/-- Every integer has its place. -/
theorem rank?_ofWide (i : Int) : (ofWide i).rank? = some (place i) := by
  unfold place
  rcases ofWide_cases i with h | ⟨units, hunits, h⟩
  · rw [h, rank?, Option.getD_some]
  · rw [h, rank?, Option.getD_some]

theorem place_of_infinite {i : Int} {negative : Bool} (h : ofWide i = .infinite negative) :
    place i = if negative then -horizon else horizon := by
  rw [place, h, rank?_infinite, Option.getD_some]

/-- Rounding keeps the order of two integers, or both are beyond all finite numbers. -/
def RoundsApart (i j : Int) : Prop :=
  (ofWide i).compare (ofWide j) = some .lt ∨
    ∃ negative, ofWide i = .infinite negative ∧ ofWide j = .infinite negative

variable {i j : Int}

theorem roundsApart_of_place_lt (h : place i < place j) : RoundsApart i j := by
  refine .inl ?_
  rw [compare_of_rank? (rank?_ofWide i) (rank?_ofWide j), Int.compare_eq_lt.mpr h]

/-- The places of integers that are rounded apart differ, or they are one of the two ends. -/
theorem RoundsApart.place_cases (h : RoundsApart i j) :
    place i < place j ∨
      (place i = place j ∧ (place i = -horizon ∨ place i = horizon)) := by
  rcases h with hless | ⟨negative, hi, hj⟩
  · rw [compare_of_rank? (rank?_ofWide i) (rank?_ofWide j), Option.some.injEq,
      Int.compare_eq_lt] at hless
    exact .inl hless
  · refine .inr ⟨(place_of_infinite hi).trans (place_of_infinite hj).symm, ?_⟩
    rw [place_of_infinite hi]
    cases negative with
    | false => exact .inr rfl
    | true => exact .inl rfl

/-- Where rounding does not keep two integers apart, a finite number stands between them. -/
theorem roundsApart_or_exists_between (hij : i < j) : RoundsApart i j ∨
    ∃ (x : Binary64) (r : Int), x.isFinite = true ∧ x.rank? = some r ∧
      place j ≤ r ∧ r ≤ place i := by
  by_cases hless : place i < place j
  · exact .inl (roundsApart_of_place_lt hless)
  have hle := not_lt.mp hless
  rcases ofWide_cases j with hj | ⟨units, hunits, hj⟩
  · rcases ofWide_cases i with hi | ⟨units, hunits, hi⟩
    · by_cases hsign : i < 0 ↔ j < 0
      · refine .inl (.inr ⟨_, hi, ?_⟩)
        rw [hj, decide_eq_decide.mpr hsign]
      · have hnegative : i < 0 := by omega
        have hnonnegative : ¬ j < 0 := by omega
        rw [decide_eq_true hnegative] at hi
        rw [decide_eq_false hnonnegative] at hj
        have hends : place i < place j := by
          rw [place_of_infinite hi, place_of_infinite hj]
          exact (Int.neg_neg_of_pos horizon_pos).trans horizon_pos
        exact absurd hends hless
    · exact .inr ⟨_, _, by rw [hi, isFinite], rank?_ofWide i, hle, le_rfl⟩
  · exact .inr ⟨_, _, by rw [hj, isFinite], rank?_ofWide j, le_rfl, hle⟩

/-! ### Integers of 53 bits -/

/-- A number of 53 bits is a number of the format. -/
theorem representable_of_le {n : Nat} (h : n ≤ 2 ^ 53) :
    Representable (n * binary64.unitsInOne) := by
  rcases h.eq_or_lt with rfl | hlt
  · decide +kernel
  by_cases hn : n = 0
  · rw [hn, Nat.zero_mul]
    exact representable_zero
  have hbits : n.log2 < 53 := (Nat.log2_lt hn).mpr hlt
  have hexponent : binary64.unitExponent = 1074 := rfl
  have hprecision : binary64.precision = 53 := rfl
  have hwidth : binary64.width = 2098 := rfl
  have hlog := log2_mul_unitsInOne binary64 hn
  constructor
  · rw [spacing, hlog]
    exact Nat.dvd_mul_left_of_dvd (pow_dvd_unitsInOne binary64 (by omega)) n
  · omega

/-- Integers of 53 bits are rounded to themselves. -/
theorem place_of_natAbs_le {i : Int} (h : i.natAbs ≤ 2 ^ 53) :
    place i = i * binary64.unitsInOne := by
  have hword : i.natAbs < Nat.pow 2 Wide.wordBits := h.trans_lt (by decide)
  have hunits := representable_of_le h
  have hround : binary64.round? i.natAbs 1 = some (i.natAbs * binary64.unitsInOne) :=
    round?_of_representable hunits Nat.one_pos (Nat.mul_one _).symm
  rw [place, ofWide_of_lt i hword, ofInt, ofQuotient_of_round? _ hround, ofUnits, dif_pos hunits,
    rank?, Option.getD_some, Int.natCast_mul]
  by_cases hnegative : i < 0
  · rw [if_pos (decide_eq_true hnegative), Int.ofNat_natAbs_of_nonpos hnegative.le, Int.neg_mul,
      Int.neg_neg]
  · rw [if_neg (by simpa using hnegative), Int.natAbs_of_nonneg (not_lt.mp hnegative)]

theorem roundsApart_of_natAbs_le (hi : i.natAbs ≤ 2 ^ 53) (hj : j.natAbs ≤ 2 ^ 53)
    (hij : i < j) : RoundsApart i j := by
  refine roundsApart_of_place_lt ?_
  rw [place_of_natAbs_le hi, place_of_natAbs_le hj]
  exact Int.mul_lt_mul_of_pos_right hij (Int.natCast_pos.mpr (unitsInOne_pos binary64))

end Binary64

end PropertyFilter
