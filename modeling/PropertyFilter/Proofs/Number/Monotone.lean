import PropertyFilter.Proofs.Number.Places

/-!
# Rounding keeps the order of integers of 128 bits

A whole number of units is rounded to one between the powers of two on either side of it
(`rounded_bounds`), and numbers of one length are rounded with one gap, so that rounding keeps the
order (`rounded_le_rounded`). Of an integer of more than 64 bits some bits are left out before it
is rounded. As long as it has at most 128 bits all of these count (`leavesOut_iff`), and what is
rounded in its place keeps the order too (`jammed_le_jammed`). So two such integers are rounded
apart unless they are rounded to one number (`roundsApart_iff_not_same`).
-/

set_option autoImplicit false

namespace PropertyFilter

namespace BinaryFormat

/-! ### Numbers of units -/

theorem roundQuotient_le_roundQuotient {m n den : Nat} (h : m ≤ n) :
    roundQuotient m den ≤ roundQuotient n den := by
  have hquotient : m / den ≤ n / den := Nat.div_le_div_right h
  rcases hquotient.lt_or_eq with hless | hsame
  · have habove : roundQuotient m den ≤ m / den + 1 := by
      simp only [roundQuotient]
      split_ifs <;> omega
    exact habove.trans (hless.trans_le (div_le_roundQuotient n den))
  · have hrest : m % den ≤ n % den := by
      have hm := Nat.div_add_mod m den
      have hn := Nat.div_add_mod n den
      rw [hsame] at hm
      omega
    simp only [roundQuotient, hsame]
    split_ifs <;> omega

/-- The number of units that a whole number of units is rounded to. -/
def rounded (format : BinaryFormat) (scaled : Nat) : Nat :=
  roundQuotient scaled (format.spacing scaled) * format.spacing scaled

variable {format : BinaryFormat} {m n : Nat}

theorem rounded_zero : format.rounded 0 = 0 := by
  simp [rounded, roundQuotient, spacing_pos]

/-- The gap around a number divides the powers of two on either side of it. -/
theorem spacing_dvd_pow (hformat : 0 < format.precision) (scaled more : Nat) :
    format.spacing scaled ∣ 2 ^ (scaled.log2 + more) :=
  Nat.pow_dvd_pow 2 (by omega)

theorem rounded_bounds (hformat : 0 < format.precision) {scaled : Nat} (hscaled : scaled ≠ 0) :
    2 ^ scaled.log2 ≤ format.rounded scaled ∧ format.rounded scaled ≤ 2 ^ (scaled.log2 + 1) := by
  have hgap := format.spacing_pos scaled
  have hexact {power : Nat} (hdvd : format.spacing scaled ∣ power) :
      roundQuotient power (format.spacing scaled) * format.spacing scaled = power := by
    obtain ⟨quotient, hquotient⟩ := hdvd
    rw [Nat.mul_comm] at hquotient
    rw [hquotient, roundQuotient_mul_self quotient hgap]
  constructor
  · calc 2 ^ scaled.log2
        = roundQuotient (2 ^ scaled.log2) (format.spacing scaled) * format.spacing scaled :=
          (hexact (spacing_dvd_pow hformat scaled 0)).symm
      _ ≤ format.rounded scaled :=
          Nat.mul_le_mul_right _ (roundQuotient_le_roundQuotient (Nat.log2_self_le hscaled))
  · calc format.rounded scaled
        ≤ roundQuotient (2 ^ (scaled.log2 + 1)) (format.spacing scaled) * format.spacing scaled :=
          Nat.mul_le_mul_right _ (roundQuotient_le_roundQuotient Nat.lt_log2_self.le)
      _ = 2 ^ (scaled.log2 + 1) := hexact (spacing_dvd_pow hformat scaled 1)

theorem log2_le_log2 (h : m ≤ n) : m.log2 ≤ n.log2 := by
  by_cases hm : m = 0
  · simp [hm]
  · have hn : n ≠ 0 := by omega
    exact (Nat.le_log2 hn).mpr ((Nat.log2_self_le hm).trans h)

/-- A function that keeps the length of numbers keeps their order, if it keeps the order of numbers
of one length. -/
theorem le_of_bounds {f : Nat → Nat} (hzero : f 0 = 0)
    (hbounds : ∀ n, n ≠ 0 → 2 ^ n.log2 ≤ f n ∧ f n ≤ 2 ^ (n.log2 + 1))
    (hlength : m.log2 = n.log2 → f m ≤ f n) (h : m ≤ n) : f m ≤ f n := by
  by_cases hm : m = 0
  · rw [hm, hzero]
    exact Nat.zero_le _
  have hn : n ≠ 0 := by omega
  rcases (log2_le_log2 h).lt_or_eq with hless | hsame
  · calc f m ≤ 2 ^ (m.log2 + 1) := (hbounds m hm).2
      _ ≤ 2 ^ n.log2 := Nat.pow_le_pow_right (by decide) hless
      _ ≤ f n := (hbounds n hn).1
  · exact hlength hsame

theorem rounded_le_rounded (hformat : 0 < format.precision) (h : m ≤ n) :
    format.rounded m ≤ format.rounded n := by
  refine le_of_bounds rounded_zero (fun _ ↦ rounded_bounds hformat) (fun hsame ↦ ?_) h
  rw [rounded, rounded, spacing, spacing, hsame]
  exact Nat.mul_le_mul_right _ (roundQuotient_le_roundQuotient h)

/-- What is rounded has the gap of the format around it. -/
theorem spacing_rounded_dvd (hformat : 0 < format.precision) (scaled : Nat) :
    format.spacing (format.rounded scaled) ∣ format.rounded scaled := by
  by_cases hscaled : scaled = 0
  · simp [hscaled, rounded_zero]
  obtain ⟨hlow, hhigh⟩ := rounded_bounds hformat hscaled
  rcases hhigh.eq_or_lt with hpower | hbelow
  · rw [hpower, spacing, Nat.log2_two_pow]
    exact Nat.pow_dvd_pow 2 (by omega)
  · have hne : format.rounded scaled ≠ 0 := by
      have hpositive := Nat.two_pow_pos scaled.log2
      omega
    have hlog : (format.rounded scaled).log2 = scaled.log2 :=
      (Nat.log2_eq_iff hne).mpr ⟨hlow, hbelow⟩
    rw [spacing, hlog]
    exact Nat.dvd_mul_left _ _

theorem pow_width_le (hformat : 0 < format.width) (h : ¬ n.log2 < format.width) :
    Nat.pow 2 format.width ≤ n := by
  have hne : n ≠ 0 := by
    rintro rfl
    exact h hformat
  exact (Nat.le_log2 hne).mp (not_lt.mp h)

theorem pow_lt_pow_width (format : BinaryFormat) {exponent : Nat} (h : exponent < format.width) :
    2 ^ exponent < Nat.pow 2 format.width :=
  Nat.pow_lt_pow_right (by decide) h

theorem round?_one (format : BinaryFormat) (n : Nat) :
    format.round? n 1 =
      if (format.rounded (n * format.unitsInOne)).log2 < format.width then
        some (format.rounded (n * format.unitsInOne))
      else none := by
  rw [round?, Nat.div_one, Nat.one_mul, rounded]

end BinaryFormat

namespace Wide

open BinaryFormat (le_of_bounds)

variable {m n : Nat}

/-! ### What is rounded in the place of a number -/

theorem wordBits_eq : wordBits = 64 := rfl

/-- Of a number of at most 128 bits all bits that are left out count. -/
theorem leavesOut_iff (hlow : 64 ≤ n.log2) (hhigh : n.log2 < 128) :
    leavesOut n = true ↔ n % 2 ^ lowerBits n ≠ 0 := by
  have hwords : lowerWords n = 1 := by
    rw [lowerWords, wordBits_eq]
    omega
  have htop : topBits n = lowerBits n := by
    rw [topBits, lowerBits, wordBits_eq]
    omega
  have hbits : lowerBits n ≤ 64 := by
    rw [lowerBits, wordBits_eq]
    omega
  have hrange : List.range 1 = [0] := rfl
  have hrest : word n 0 % 2 ^ lowerBits n = n % 2 ^ lowerBits n :=
    Nat.mod_mod_of_dvd n (Nat.pow_dvd_pow 2 hbits)
  rw [leavesOut, hwords, htop, hrange, List.any_cons, List.any_nil, Bool.or_false, bne_iff_ne,
    ← hrest]
  rfl

/-- The leading bits are those that are kept, and the last of them may be set. -/
theorem leading_cases (n : Nat) : leading n = n / 2 ^ lowerBits n ∨
    (leading n = n / 2 ^ lowerBits n + 1 ∧ n / 2 ^ lowerBits n % 2 = 0) := by
  simp only [leading, Nat.shiftRight_eq_div_pow]
  split
  · next h =>
    rw [Bool.and_eq_true, beq_iff_eq] at h
    exact .inr ⟨rfl, h.2⟩
  · exact .inl rfl

theorem jammed_of_log2_lt (h : n.log2 < 64) : jammed n = n := by
  by_cases hn : n = 0
  · subst hn
    decide
  · exact jammed_of_lt n ((Nat.log2_lt hn).mp h)

/-- A number keeps its length. -/
theorem jammed_bounds (hn : n ≠ 0) : 2 ^ n.log2 ≤ jammed n ∧ jammed n < 2 ^ (n.log2 + 1) := by
  by_cases hshort : n.log2 < 64
  · rw [jammed_of_log2_lt hshort]
    exact ⟨Nat.log2_self_le hn, Nat.lt_log2_self⟩
  have hlow : 2 ^ n.log2 = 2 ^ 63 * 2 ^ lowerBits n := by
    rw [← Nat.pow_add, lowerBits, wordBits_eq]
    congr 1
    omega
  have hhigh : 2 ^ (n.log2 + 1) = 2 ^ 64 * 2 ^ lowerBits n := by
    rw [← Nat.pow_add, lowerBits, wordBits_eq]
    congr 1
    omega
  have hpositive := Nat.two_pow_pos (lowerBits n)
  have hkept : 2 ^ 63 ≤ n / 2 ^ lowerBits n := by
    rw [Nat.le_div_iff_mul_le hpositive, ← hlow]
    exact Nat.log2_self_le hn
  have hkept' : n / 2 ^ lowerBits n < 2 ^ 64 := by
    rw [Nat.div_lt_iff_lt_mul hpositive, ← hhigh]
    exact Nat.lt_log2_self
  have hleading : 2 ^ 63 ≤ leading n ∧ leading n < 2 ^ 64 := by
    rcases leading_cases n with h | ⟨h, heven⟩
    · omega
    · omega
  rw [hlow, hhigh, jammed, Nat.shiftLeft_eq]
  exact ⟨Nat.mul_le_mul_right _ hleading.1, Nat.mul_lt_mul_of_pos_right hleading.2 hpositive⟩

/-- Of numbers of one length the greater one has the greater leading bits, or else the same ones,
and then it leaves something out if the other one does. -/
theorem leading_le_leading (hlow : 64 ≤ n.log2) (hhigh : n.log2 < 128) (hsame : m.log2 = n.log2)
    (h : m ≤ n) : leading m ≤ leading n := by
  have hbits : lowerBits m = lowerBits n := by rw [lowerBits, lowerBits, hsame]
  have hm : leavesOut m = true ↔ m % 2 ^ lowerBits m ≠ 0 :=
    leavesOut_iff (by omega) (by omega)
  have hn := leavesOut_iff hlow hhigh
  rw [hbits] at hm
  have hkept : m / 2 ^ lowerBits n ≤ n / 2 ^ lowerBits n := Nat.div_le_div_right h
  rcases hkept.lt_or_eq with hless | hequal
  · have hm' := leading_cases m
    have hn' := leading_cases n
    rw [hbits] at hm'
    omega
  · have hrest : m % 2 ^ lowerBits n ≤ n % 2 ^ lowerBits n := by
      have hm' := Nat.div_add_mod m (2 ^ lowerBits n)
      have hn' := Nat.div_add_mod n (2 ^ lowerBits n)
      rw [hequal] at hm'
      omega
    have hleaves : leavesOut m = true → leavesOut n = true := by
      rw [hm, hn]
      omega
    simp only [leading, Nat.shiftRight_eq_div_pow, hbits, hequal]
    cases hleft : leavesOut m with
    | true => rw [hleaves hleft]
    | false =>
      rw [Bool.false_and, if_neg Bool.false_ne_true]
      split <;> omega

theorem jammed_le_jammed (hn : n < 2 ^ 128) (h : m ≤ n) : jammed m ≤ jammed n := by
  refine le_of_bounds rfl (fun n hn ↦ ?_) (fun hsame ↦ ?_) h
  · exact ⟨(jammed_bounds hn).1, (jammed_bounds hn).2.le⟩
  · by_cases hshort : n.log2 < 64
    · rwa [jammed_of_log2_lt (hsame ▸ hshort), jammed_of_log2_lt hshort]
    · have hne : n ≠ 0 := by
        rintro rfl
        exact hshort (by decide)
      have hhigh : n.log2 < 128 := (Nat.log2_lt hne).mpr hn
      have hbits : lowerBits m = lowerBits n := by rw [lowerBits, lowerBits, hsame]
      rw [jammed, jammed, Nat.shiftLeft_eq, Nat.shiftLeft_eq, hbits]
      exact Nat.mul_le_mul_right _ (leading_le_leading (not_lt.mp hshort) hhigh hsame h)

end Wide

namespace Binary64

open BinaryFormat

variable {i j : Int}

/-! ### Places -/

/-- How far from zero the place of a number of this size is. -/
def magnitude (n : Nat) : Nat :=
  min (binary64.rounded (Wide.jammed n * binary64.unitsInOne)) (Nat.pow 2 binary64.width)

theorem place_eq (i : Int) :
    place i = if i < 0 then -(magnitude i.natAbs : Int) else magnitude i.natAbs := by
  have hround := round?_one binary64 (Wide.jammed i.natAbs)
  have hdvd := spacing_rounded_dvd (show 0 < binary64.precision by decide)
    (Wide.jammed i.natAbs * binary64.unitsInOne)
  rw [magnitude]
  generalize binary64.rounded (Wide.jammed i.natAbs * binary64.unitsInOne) = units at hround hdvd
  split at hround
  · next hwidth =>
    have hunits : Representable units := ⟨hdvd, hwidth⟩
    rw [place, ofWide, ofQuotient_of_round? _ hround, ofUnits, dif_pos hunits, rank?,
      Option.getD_some, min_eq_left (lt_pow_width binary64 hwidth).le]
    by_cases hnegative : i < 0
    · rw [if_pos hnegative, if_pos (decide_eq_true hnegative)]
    · rw [if_neg hnegative, if_neg (by simpa using hnegative)]
  · next hwidth =>
    have hinfinite : ofWide i = .infinite (i < 0) := by rw [ofWide, ofQuotient, hround, ofRounded]
    have hlarge := pow_width_le (by decide) hwidth
    rw [place_of_infinite hinfinite, min_eq_right hlarge, ← horizon]
    by_cases hnegative : i < 0
    · rw [if_pos hnegative, if_pos (decide_eq_true hnegative)]
    · rw [if_neg hnegative, if_neg (by simpa using hnegative)]

theorem magnitude_le_magnitude {m n : Nat} (hn : n < 2 ^ 128) (h : m ≤ n) :
    magnitude m ≤ magnitude n := by
  have hjammed := Wide.jammed_le_jammed hn h
  exact min_le_min_right _ (rounded_le_rounded (by decide) (Nat.mul_le_mul_right _ hjammed))

/-- Rounding keeps the order of integers of 128 bits. -/
theorem place_le_place (hi : i.natAbs < 2 ^ 128) (hj : j.natAbs < 2 ^ 128) (h : i ≤ j) :
    place i ≤ place j := by
  rw [place_eq, place_eq]
  split
  · split
    · have hmagnitude : magnitude j.natAbs ≤ magnitude i.natAbs :=
        magnitude_le_magnitude hi (by omega)
      omega
    · omega
  · have hmagnitude : magnitude i.natAbs ≤ magnitude j.natAbs :=
      magnitude_le_magnitude hj (by omega)
    rw [if_neg (by omega)]
    omega

/-- Numbers of 128 bits are rounded to finite ones. -/
theorem magnitude_lt {n : Nat} (hn : n < 2 ^ 128) : magnitude n < Nat.pow 2 binary64.width := by
  refine (min_le_left _ _).trans_lt ?_
  by_cases hzero : n = 0
  · rw [hzero, Wide.jammed_of_log2_lt (by decide), Nat.zero_mul, rounded_zero]
    exact pow_width_pos binary64
  have hjammed := Wide.jammed_bounds hzero
  have hne : Wide.jammed n ≠ 0 := by
    have hpositive := Nat.two_pow_pos n.log2
    omega
  have hlog : (Wide.jammed n).log2 = n.log2 := (Nat.log2_eq_iff hne).mpr hjammed
  have hshort : n.log2 < 128 := (Nat.log2_lt hzero).mpr hn
  have hscaled := log2_mul_unitsInOne binary64 hne
  have hunits : Wide.jammed n * binary64.unitsInOne ≠ 0 :=
    Nat.mul_ne_zero hne (unitsInOne_pos binary64).ne'
  refine ((rounded_bounds (by decide) hunits).2).trans_lt (pow_lt_pow_width binary64 ?_)
  have hexponent : binary64.unitExponent = 1074 := rfl
  have hwidth : binary64.width = 2098 := rfl
  omega

theorem place_ne_horizon (hi : i.natAbs < 2 ^ 128) : place i ≠ -horizon ∧ place i ≠ horizon := by
  have hfinite : (magnitude i.natAbs : Int) < horizon := Int.ofNat_lt.mpr (magnitude_lt hi)
  rw [place_eq]
  split
  · omega
  · omega

theorem same_ofWide_iff : (ofWide i).same (ofWide j) = true ↔ place i = place j := by
  rw [same, compare_of_rank? (rank?_ofWide i) (rank?_ofWide j), beq_iff_eq, Option.some.injEq,
    Int.compare_eq_eq]

/-- Integers of 128 bits are rounded apart unless they are rounded to one number. -/
theorem roundsApart_iff_not_same (hi : i.natAbs < 2 ^ 128) (hj : j.natAbs < 2 ^ 128) (hij : i < j) :
    RoundsApart i j ↔ ¬ (ofWide i).same (ofWide j) = true := by
  have hplaces := place_le_place hi hj hij.le
  have hends := place_ne_horizon hi
  rw [same_ofWide_iff]
  constructor
  · intro h
    rcases h.place_cases with hless | ⟨-, hend⟩
    · exact hless.ne
    · exact absurd hend (by omega)
  · exact fun h ↦ roundsApart_of_place_lt (lt_of_le_of_ne hplaces h)

-- Of a number of 129 bits only one bit of each lower word counts, here that of the smaller number.
example : (ofWide (2 ^ 128 + 2 ^ 75 + 1)).compare (ofWide (2 ^ 128 + 2 ^ 75 + 2)) = some .gt := by
  decide +kernel

end Binary64

end PropertyFilter
