import Mathlib.Data.List.Induction
import Mathlib.Tactic.Ring
import PropertyFilter.Number.Shortest
import PropertyFilter.Proofs.Lexeme.Plain
import PropertyFilter.Proofs.Number.Rounding

/-!
# Decimal texts of floating-point numbers

The shortest decimal of a number of units is rounded to these units again (`readsAs_shortest`),
whichever grid it was found on. Both layouts of a decimal write a number of the same value
(`exists_number_plain`, `exists_number_scientific`), and rounding depends on the value alone, so the
text of a finite floating-point number is scanned as that number in every layout
(`Binary64.scans_text`). Nothing has to be known of how short the text is.
-/

set_option autoImplicit false

namespace PropertyFilter

open Lexeme (IsDigits Number)

namespace Numeral

theorem value_append_eq (first second : List Char) :
    value (first ++ second) = value first * 10 ^ second.length + value second := by
  induction second using List.reverseRecOn with
  | nil => simp [value]
  | append_singleton cs c ih =>
    rw [← List.append_assoc, value_concat, value_concat, ih, List.length_append,
      List.length_singleton, pow_succ]
    ring

theorem value_zeros (count : Nat) : value (List.replicate count '0') = 0 := by
  induction count with
  | zero => rfl
  | succ count ih => rw [List.replicate_succ', value_concat, ih, Nat.sub_self]

theorem value_append_zeros (cs : List Char) (count : Nat) :
    value (cs ++ List.replicate count '0') = value cs * 10 ^ count := by
  rw [value_append_eq, value_zeros, List.length_replicate, Nat.add_zero]

theorem value_zeros_append (count : Nat) (cs : List Char) :
    value (List.replicate count '0' ++ cs) = value cs := by
  rw [value_append_eq, value_zeros, Nat.zero_mul, Nat.zero_add]

end Numeral

namespace Decimal

open BinaryFormat Binary64

/-- The number that a decimal is. -/
def toRat (d : Decimal) : ℚ := d.coefficient * 10 ^ d.exponent

theorem readsAs_iff (d : Decimal) (units : Nat) :
    d.readsAs units = true ↔ binary64.round? (decimalQuotient d.coefficient d.exponent).1
      (decimalQuotient d.coefficient d.exponent).2 = some units := by
  rw [readsAs]
  exact beq_iff_eq

theorem readsAs_congr {d d' : Decimal} (h : d.toRat = d'.toRat) (units : Nat) :
    d.readsAs units = true ↔ d'.readsAs units = true := by
  rw [readsAs_iff, readsAs_iff, round?_decimalQuotient_congr h]

theorem toRat_reduce (coefficient : Nat) (exponent : Int) :
    (reduce coefficient exponent).toRat = toRat ⟨coefficient, exponent⟩ := by
  fun_induction reduce coefficient exponent with
  | case1 coefficient exponent h ih =>
    have hcoefficient : coefficient = coefficient / 10 * 10 := by omega
    have hcast : (coefficient : ℚ) = (coefficient / 10 : Nat) * 10 := by exact_mod_cast hcoefficient
    rw [ih, toRat, toRat, hcast, zpow_add_one₀ (by norm_num)]
    ring
  | case2 coefficient exponent h => rfl

/-! ### The shortest decimal -/

theorem eq_of_nearer? {tie : Tie} {past whole : Nat} {down up d : Decimal}
    {downReads upReads : Bool} (h : nearer? tie past whole down up downReads upReads = some d) :
    (d = down ∧ downReads = true) ∨ (d = up ∧ upReads = true) := by
  cases downReads <;> cases upReads <;> simp only [nearer?, Option.some.injEq, reduceCtorEq] at h
  · exact .inr ⟨h.symm, rfl⟩
  · exact .inl ⟨h.symm, rfl⟩
  · split at h
    · exact .inr ⟨h.symm, rfl⟩
    · exact .inl ⟨h.symm, rfl⟩

theorem readsAs_of_onGrid? {tie : Tie} {units : Nat} {exponent : Int} {d : Decimal}
    (h : onGrid? tie units exponent = some d) : d.readsAs units = true := by
  rcases eq_of_nearer? h with ⟨rfl, hreads⟩ | ⟨rfl, hreads⟩
  · exact hreads
  · exact hreads

/-- A number of units written in full is rounded to these units. -/
theorem readsAs_exact {units : Nat} (hunits : Representable units) :
    (exact units).readsAs units = true := by
  rw [readsAs_iff, exact]
  refine round?_of_representable hunits (decimalQuotient_snd_pos _ _) ?_
  rw [decimalQuotient_neg, unitsInOne]
  generalize binary64.unitExponent = places
  have hpower : 5 ^ places * 2 ^ places = 10 ^ places := (Nat.mul_pow 5 2 places).symm
  rw [← hpower, Nat.pow_eq, Nat.pow_eq, Nat.mul_assoc]

/-- The shortest decimal of a number of units is rounded to these units. -/
theorem readsAs_shortest (tie : Tie) {units : Nat} (hunits : Representable units) :
    (shortest tie units).readsAs units = true := by
  rw [shortest, readsAs_congr (toRat_reduce _ _)]
  generalize hfound : List.findSome? _ _ = found
  cases found with
  | none => exact readsAs_exact hunits
  | some d =>
    obtain ⟨further, -, hgrid⟩ := List.exists_of_findSome?_eq_some hfound
    exact readsAs_of_onGrid? hgrid

end Decimal

/-! ### Layouts -/

namespace Lexeme.Number

/-- The digits of a number without its point, as a decimal. -/
def toDecimal (n : Number) : Decimal :=
  ⟨Numeral.value (n.whole ++ n.fraction.getD []), n.power - (n.fraction.getD []).length⟩

/-- A number of the value of a decimal is the floating-point number that the decimal is read as. -/
theorem toBinary64_of_readsAs {n : Number} {d : Decimal} {units : Nat} (hunits : units ≠ 0)
    (hvalue : n.toDecimal.toRat = d.toRat) (hreads : d.readsAs units = true) :
    n.toBinary64 = Binary64.ofUnits n.negative units := by
  rw [← Decimal.readsAs_congr hvalue, Decimal.readsAs_iff] at hreads
  exact Binary64.ofDecimal_of_round? n.negative hunits hreads

theorem isSpelled_point (negative : Bool) {whole places : List Char} (hwhole : IsDigits whole)
    (hplaces : IsDigits places) : IsSpelled ⟨negative, whole, some places, none⟩ :=
  ⟨hwhole, by simpa using hplaces, by simp, by simp, by simp⟩

theorem toRat_point (negative : Bool) (whole places : List Char) :
    (toDecimal ⟨negative, whole, some places, none⟩).toRat =
      Numeral.value (whole ++ places) * 10 ^ (-(places.length : Int)) := by
  simp [toDecimal, Decimal.toRat, power]

end Lexeme.Number

namespace Decimal

theorem isDigits_replicate_append {ds : List Char} (hds : IsDigits ds) (count : Nat) :
    IsDigits (List.replicate count '0' ++ ds) ∧ IsDigits (ds ++ List.replicate count '0') := by
  have hzero : ∀ c ∈ List.replicate count '0', c.isDigit = true := by
    intro c hc
    rw [List.eq_of_mem_replicate hc]
    rfl
  refine ⟨⟨by simp [hds.1], ?_⟩, ⟨by simp [hds.1], ?_⟩⟩
  · intro c hc
    exact (List.mem_append.mp hc).elim (hzero c) (hds.2 c)
  · intro c hc
    exact (List.mem_append.mp hc).elim (hds.2 c) (hzero c)

theorem isDigits_take {ds : List Char} (hds : IsDigits ds) {count : Nat} (hcount : 0 < count) :
    IsDigits (ds.take count) := by
  have hpositive := List.length_pos_iff.mpr hds.1
  constructor
  · exact List.ne_nil_of_length_pos (by rw [List.length_take]; omega)
  · intro c hc
    exact hds.2 c (List.mem_of_mem_take hc)

theorem isDigits_drop {ds : List Char} (hds : IsDigits ds) {count : Nat}
    (hcount : count < ds.length) : IsDigits (ds.drop count) := by
  constructor
  · exact List.ne_nil_of_length_pos (by rw [List.length_drop]; omega)
  · intro c hc
    exact hds.2 c (List.mem_of_mem_drop hc)

/-- Digits with a point in its place write a number of the value of the digits and their power of
ten. -/
theorem exists_number_plain (negative : Bool) {ds : List Char} (hds : IsDigits ds)
    (exponent : Int) : ∃ whole places : List Char, IsDigits whole ∧ IsDigits places ∧
      plain ds exponent = whole ++ '.' :: places ∧
      (Number.toDecimal ⟨negative, whole, some places, none⟩).toRat =
        Numeral.value ds * 10 ^ exponent := by
  have hone : IsDigits ['0'] := by simp [IsDigits]
  simp only [Number.toRat_point]
  by_cases hexponent : 0 ≤ exponent
  · obtain ⟨zeros, rfl⟩ := Int.eq_ofNat_of_zero_le hexponent
    refine ⟨_, ['0'], (isDigits_replicate_append hds zeros).2, hone, by simp [plain], ?_⟩
    have hvalue : Numeral.value (ds ++ List.replicate zeros '0' ++ ['0']) =
        Numeral.value ds * 10 ^ zeros * 10 := by
      rw [Numeral.value_concat, Numeral.value_append_zeros, Nat.sub_self, Nat.add_zero,
        Nat.mul_comm]
    rw [hvalue]
    push_cast
    simp
  · by_cases hplaces : exponent.natAbs < ds.length
    · have hbefore : 0 < ds.length - exponent.natAbs := by omega
      have hafter : ds.length - exponent.natAbs < ds.length := by omega
      refine ⟨_, _, isDigits_take hds hbefore, isDigits_drop hds hafter,
        by simp [plain, hexponent, hplaces], ?_⟩
      have hpower : -((ds.length - (ds.length - exponent.natAbs) : Nat) : Int) = exponent := by
        omega
      rw [List.take_append_drop, List.length_drop, hpower]
    · refine ⟨['0'], _, hone, (isDigits_replicate_append hds (exponent.natAbs - ds.length)).1,
        by simp [plain, hexponent, hplaces], ?_⟩
      have hpower : -((exponent.natAbs - ds.length + ds.length : Nat) : Int) = exponent := by omega
      have hzero := Numeral.value_zeros_append (exponent.natAbs - ds.length + 1) ds
      rw [List.replicate_succ, List.cons_append] at hzero
      rw [List.singleton_append, hzero, List.length_append, List.length_replicate, hpower]

/-- The sign that a layout gives to a power of ten. -/
def Layout.sign (layout : Layout) (power : Int) : Option Char :=
  if power < 0 then some '-' else if layout.plusSign then some '+' else none

theorem Layout.sign_cases (layout : Layout) (power : Int) :
    (layout.sign power = some '-' ∧ power < 0) ∨
      (layout.sign power = some '+' ∧ 0 ≤ power) ∨ (layout.sign power = none ∧ 0 ≤ power) := by
  unfold Layout.sign
  split_ifs with hnegative hplus
  · exact .inl ⟨rfl, hnegative⟩
  · exact .inr (.inl ⟨rfl, by omega⟩)
  · exact .inr (.inr ⟨rfl, by omega⟩)

/-- A number with an exponent in a layout has the power of ten that the layout was given. -/
theorem power_of_exponent (layout : Layout) (power : Int) {n : Number}
    (hn : n.exponent = some ('e', layout.sign power, Numeral.digits power.natAbs)) :
    n.power = power := by
  simp only [Number.power, hn, Numeral.value_digits]
  rcases layout.sign_cases power with ⟨hsign, hpower⟩ | ⟨hsign, hpower⟩ | ⟨hsign, hpower⟩ <;>
    simp only [hsign, Option.some.injEq, Char.reduceEq, reduceCtorEq, if_true, if_false] <;> omega

theorem isSpelled_scientific (layout : Layout) (power : Int) {n : Number}
    (hwhole : IsDigits n.whole) (hfraction : ∀ ds ∈ n.fraction, IsDigits ds)
    (hn : n.exponent = some ('e', layout.sign power, Numeral.digits power.natAbs)) :
    n.IsSpelled := by
  refine ⟨hwhole, hfraction, ?_, ?_, ?_⟩
  · simp [hn]
  · intro e he c hc
    rw [hn, Option.mem_some_iff] at he
    subst he
    rcases layout.sign_cases power with ⟨hsign, -⟩ | ⟨hsign, -⟩ | ⟨hsign, -⟩
    · exact .inr (Option.some.inj (hc.symm.trans hsign))
    · exact .inl (Option.some.inj (hc.symm.trans hsign))
    · cases hc.symm.trans hsign
  · simpa [hn] using Lexeme.isDigits_digits power.natAbs

theorem scientific_eq (layout : Layout) (ds : List Char) (power : Int) :
    scientific layout ds power = (if ds.length ≤ 1 then ds else ds.take 1 ++ '.' :: ds.drop 1) ++
      'e' :: ((layout.sign power).toList ++ Numeral.digits power.natAbs) := by
  simp only [scientific, Layout.sign]
  split_ifs <;> simp

/-- Digits with a point after the first one, and the power of ten of that digit, write a number of
the value of the digits. -/
theorem exists_number_scientific (negative : Bool) (layout : Layout) {ds : List Char}
    (hds : IsDigits ds) (exponent : Int) : ∃ n : Number, n.IsSpelled ∧ n.negative = negative ∧
      n.text = n.signText ++ scientific layout ds (exponent + ds.length - 1) ∧
      n.exponent.isSome = true ∧ n.toDecimal.toRat = Numeral.value ds * 10 ^ exponent := by
  generalize hpower : exponent + ds.length - 1 = power
  have hpositive := List.length_pos_iff.mpr hds.1
  by_cases hlength : ds.length ≤ 1
  · let n : Number :=
      ⟨negative, ds, none, some ('e', layout.sign power, Numeral.digits power.natAbs)⟩
    have hn : n.power - (n.fraction.getD []).length = exponent := by
      rw [power_of_exponent layout power (n := n) rfl]
      simp only [n, Option.getD_none, List.length_nil]
      omega
    refine ⟨n, isSpelled_scientific layout power hds (by simp [n]) rfl, rfl, ?_, rfl, ?_⟩
    · simp [n, Number.text, Number.signText, scientific_eq, hlength]
    · rw [toRat, Number.toDecimal, hn]
      simp [n]
  · let n : Number := ⟨negative, ds.take 1, some (ds.drop 1),
      some ('e', layout.sign power, Numeral.digits power.natAbs)⟩
    have hn : n.power - (n.fraction.getD []).length = exponent := by
      rw [power_of_exponent layout power (n := n) rfl]
      simp only [n, Option.getD_some, List.length_drop]
      omega
    have hwhole : IsDigits n.whole := isDigits_take hds Nat.one_pos
    have hplaces : IsDigits (ds.drop 1) := isDigits_drop hds (by omega)
    refine ⟨n, isSpelled_scientific layout power hwhole (by simpa [n] using hplaces) rfl, rfl, ?_,
      rfl, ?_⟩
    · simp [n, Number.text, Number.signText, scientific_eq, hlength]
    · rw [toRat, Number.toDecimal, hn]
      simp only [n, Option.getD_some, List.take_append_drop]

/-- Any layout of a decimal that is not zero is a number of the value of the decimal, with a point
or an exponent. -/
theorem exists_number_digitsText (negative : Bool) (layout : Layout) (d : Decimal) :
    ∃ n : Number, n.IsSpelled ∧ n.negative = negative ∧
      n.text = n.signText ++ d.digitsText layout ∧
      (n.fraction.isSome || n.exponent.isSome) = true ∧ n.toDecimal.toRat = d.toRat := by
  have hds := Lexeme.isDigits_digits d.coefficient
  have hvalue : (Numeral.value (Numeral.digits d.coefficient) : ℚ) * 10 ^ d.exponent = d.toRat := by
    rw [Numeral.value_digits, toRat]
  simp only [digitsText]
  split
  · obtain ⟨whole, places, hwhole, hplaces, htext, hrat⟩ :=
      exists_number_plain negative hds d.exponent
    refine ⟨_, Number.isSpelled_point negative hwhole hplaces, rfl, ?_, rfl, hrat.trans hvalue⟩
    simp [Number.text, Number.signText, htext]
  · obtain ⟨n, hspelled, hnegative, htext, hexponent, hrat⟩ :=
      exists_number_scientific negative layout hds d.exponent
    exact ⟨n, hspelled, hnegative, htext, by simp [hexponent], hrat.trans hvalue⟩

end Decimal

namespace Binary64

open Lexeme (Boundary Scans)

theorem ofUnits_of_representable (negative : Bool) {units : Nat} (h : Representable units) :
    ofUnits negative units = .finite negative units h := by
  rw [ofUnits, dif_pos h]

/-- A number with a point or an exponent is the floating-point number of its value. -/
theorem toLexeme_of_toBinary64 {n : Number} {x : Binary64}
    (hpoint : (n.fraction.isSome || n.exponent.isSome) = true) (hvalue : n.toBinary64 = x)
    (hx : x.isFinite = true) : n.toLexeme = .ok (.decimal x) := by
  subst hvalue
  simp only [Number.toLexeme]
  rw [if_pos hpoint, if_pos hx]

theorem toBinary64_zero (negative : Bool) :
    (Number.mk negative ['0'] (some ['0']) none).toBinary64 = zero negative := by
  have hvalue : Numeral.value (['0'] ++ ['0']) = 0 := rfl
  rw [Number.toBinary64, ofDecimal, if_pos]
  exact hvalue

theorem text_of_ne_zero (layout : Decimal.Layout) (negative : Bool) {units : Nat}
    (hunits : Representable units) (hzero : units ≠ 0) :
    (finite negative units hunits).text layout =
      (if negative then ['-'] else []) ++
        (Decimal.shortest layout.tie units).digitsText layout := by
  -- Rewriting only: what evaluates the shortest decimal does not come to an end.
  rw [text, if_neg hzero]
  cases negative
  · rw [if_neg Bool.false_ne_true, if_neg Bool.false_ne_true, List.nil_append]
  · rw [if_pos rfl, if_pos rfl, List.singleton_append]

/-- The text of a finite number is the text of a number that is read as it. -/
theorem exists_number_text {x : Binary64} (hx : x.isFinite = true) (layout : Decimal.Layout) :
    ∃ n : Number, n.IsSpelled ∧ n.text = x.text layout ∧ n.toLexeme = .ok (.decimal x) := by
  cases x with
  | nan => cases hx
  | infinite negative => cases hx
  | finite negative units hunits =>
    by_cases hzero : units = 0
    · subst hzero
      have hone : IsDigits ['0'] := by simp [IsDigits]
      refine ⟨⟨negative, ['0'], some ['0'], none⟩, Number.isSpelled_point negative hone hone, ?_,
        toLexeme_of_toBinary64 rfl (toBinary64_zero negative) hx⟩
      rw [text, if_pos rfl]
      cases negative <;> rfl
    · have hreads := Decimal.readsAs_shortest layout.tie hunits
      generalize hd : Decimal.shortest layout.tie units = d at hreads
      obtain ⟨n, hspelled, rfl, htext, hpoint, hrat⟩ :=
        Decimal.exists_number_digitsText negative layout d
      refine ⟨n, hspelled, ?_, toLexeme_of_toBinary64 hpoint ?_ hx⟩
      · rw [htext, text_of_ne_zero layout n.negative hunits hzero, hd, Number.signText]
      · rw [Number.toBinary64_of_readsAs hzero hrat hreads, ofUnits_of_representable]

/-- The text of a finite number is scanned as that number, in every layout. -/
theorem scans_text {x : Binary64} (hx : x.isFinite = true) (layout : Decimal.Layout)
    {rest : List Char} (hrest : Boundary rest) : Scans (x.text layout) (.decimal x) rest := by
  obtain ⟨n, hspelled, htext, hlexeme⟩ := exists_number_text hx layout
  rw [← htext]
  exact Number.scans_number hspelled hlexeme (Lexeme.mayFollowNumber_of_boundary hrest)

end Binary64

end PropertyFilter
