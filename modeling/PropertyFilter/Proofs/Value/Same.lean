import PropertyFilter.Filter.Matching
import PropertyFilter.Filter.Normalize

/-!
# Equality as data and the order of values

`Value.same` identifies both zeros and all local clocks of one point in time, so it is coarser than
equality and finer than comparing as equal. This module shows that it is fine enough for matching:
values that are the same compare alike with every value (`compare_eq_of_same`), tests that are the
same are passed by the same properties (`Test.holds_eq_of_same`), and filters that are the same are
satisfied by the same records (`Filter.holds_eq_of_same`). Complements keep the relation
(`Filter.complement_same`), so it may be used below negations as well.
-/

set_option autoImplicit false

namespace PropertyFilter

namespace Binary64

/-- Two numbers are the same if they have a place on the line and it is one place. -/
theorem same_iff (x y : Binary64) :
    x.same y = true ↔ ∃ i, x.rank? = some i ∧ y.rank? = some i := by
  unfold same compare
  cases x.rank? with
  | none => simp
  | some i =>
    cases y.rank? with
    | none => simp
    | some j => simp [@eq_comm _ i j]

theorem compare_eq_of_same {x y : Binary64} (h : x.same y = true) (z : Binary64) :
    z.compare x = z.compare y := by
  obtain ⟨i, hx, hy⟩ := (same_iff x y).mp h
  rw [compare, compare, hx, hy]

end Binary64

namespace DateTime

/-- Two points in time are the same if seconds and nanoseconds agree. -/
theorem same_iff (t u : DateTime) :
    t.same u = true ↔ t.seconds = u.seconds ∧ t.nanos = u.nanos := by
  simp [same, compare, Ordering.then_eq_eq]

theorem compare_eq_of_same {t u : DateTime} (h : t.same u = true) (v : DateTime) :
    v.compare t = v.compare u := by
  obtain ⟨hseconds, hnanos⟩ := (same_iff t u).mp h
  rw [compare, compare, hseconds, hnanos]

end DateTime

namespace Value

/-- Values that are the same are two floats, two points in time, or one value. -/
theorem same_cases {v w : Value} (h : v.same w = true) :
    v = w ∨ (∃ x y, v = .float x ∧ w = .float y ∧ x.same y = true) ∨
      ∃ t u, v = .dateTime t ∧ w = .dateTime u ∧ t.same u = true := by
  cases v <;> cases w <;> simp_all [same]

/-- Values that are the same compare alike with any third one. -/
theorem compare_eq_of_same {v w : Value} (h : v.same w = true) (actual : Value) :
    actual.compare v = actual.compare w := by
  rcases same_cases h with rfl | ⟨x, y, rfl, rfl, hsame⟩ | ⟨t, u, rfl, rfl, hsame⟩
  · rfl
  · cases actual <;> simp [compare, Binary64.compare_eq_of_same hsame]
  · cases actual <;> simp [compare, DateTime.compare_eq_of_same hsame, integer?]

/-- Values that are the same have one kind, which is all that decides how a text is converted. -/
theorem converted_eq_of_same {v w : Value} (h : v.same w = true) (actual : Value) :
    actual.converted v = actual.converted w := by
  rcases same_cases h with rfl | ⟨x, y, rfl, rfl, -⟩ | ⟨t, u, rfl, rfl, -⟩
  · rfl
  · cases actual <;> rfl
  · cases actual <;> rfl

end Value

namespace Test

theorem compared_eq_of_same {v w : Value} (h : v.same w = true) (actual : Option Value) :
    compared actual v = compared actual w := by
  unfold compared
  congr 1
  funext x
  rw [Value.converted_eq_of_same h, Value.compare_eq_of_same h]

theorem equalTo_eq_of_same {v w : Value} (h : v.same w = true) (actual : Option Value) :
    equalTo actual v = equalTo actual w := by
  rw [equalTo, equalTo, compared_eq_of_same h]

theorem equalToOption_eq_of_sameOption {v w : Option Value} (h : sameOption v w = true)
    (actual : Option Value) : equalToOption actual v = equalToOption actual w := by
  cases v <;> cases w <;> simp only [sameOption, Bool.false_eq_true] at h
  · rfl
  · exact equalTo_eq_of_same h actual

theorem any_equalTo_eq_of_sameList {vs ws : List Value} (h : sameList vs ws = true)
    (actual : Option Value) : vs.any (equalTo actual) = ws.any (equalTo actual) := by
  fun_induction sameList vs ws with
  | case1 v vs w ws ih =>
    obtain ⟨hhead, htail⟩ := Bool.and_eq_true_iff.mp h
    rw [List.any_cons, List.any_cons, equalTo_eq_of_same hhead, ih htail]
  | case2 => rfl
  | case3 => exact absurd h Bool.false_ne_true

/-- Tests that are the same are passed by the same properties. -/
theorem holds_eq_of_same {t u : Test} (h : t.same u = true) (actual : Option Value) :
    t.holds actual = u.holds actual := by
  cases t <;> cases u <;> simp only [same, Bool.false_eq_true, Bool.and_eq_true, beq_iff_eq] at h
  case equals.equals v w => exact equalToOption_eq_of_sameOption h actual
  case differs.differs v w => simp only [holds, equalToOption_eq_of_sameOption h actual]
  case ordered.ordered r v s w =>
    obtain ⟨rfl, hbound⟩ := h
    simp only [holds, compared_eq_of_same hbound]
  case text.text => rw [h.1, h.2]
  case present.present => rfl
  case oneOf.oneOf vs ws => exact any_equalTo_eq_of_sameList h actual

/-- Tests that are the same have complements that are the same, or none. -/
theorem complement?_same {t u : Test} (h : t.same u = true) :
    (t.complement? = none ∧ u.complement? = none) ∨
      ∃ t' u', t.complement? = some t' ∧ u.complement? = some u' ∧ t'.same u' = true := by
  cases t <;> cases u <;> simp_all [same, complement?]

end Test

namespace Filter

/-- Filters that are the same are satisfied by the same records. -/
theorem holds_eq_of_same {f g : Filter} (h : f.same g = true) (r : Record) :
    f.holds r = g.holds r := by
  fun_induction same f g with
  | case1 a b c d iha ihb =>
    obtain ⟨hleft, hright⟩ := Bool.and_eq_true_iff.mp h
    rw [holds, holds, iha hleft, ihb hright]
  | case2 a b c d iha ihb =>
    obtain ⟨hleft, hright⟩ := Bool.and_eq_true_iff.mp h
    rw [holds, holds, iha hleft, ihb hright]
  | case3 a b ih => rw [holds, holds, ih h]
  | case4 p s q t =>
    obtain ⟨hproperty, htest⟩ := Bool.and_eq_true_iff.mp h
    rw [holds, holds, eq_of_beq hproperty, Test.holds_eq_of_same htest]
  | case5 => exact absurd h Bool.false_ne_true

/-- Filters that are the same have complements that are the same. -/
theorem complement_same {f g : Filter} (h : f.same g = true) :
    f.complement.same g.complement = true := by
  fun_induction same f g with
  | case1 a b c d iha ihb =>
    obtain ⟨hleft, hright⟩ := Bool.and_eq_true_iff.mp h
    simp only [complement, same, iha hleft, ihb hright, Bool.and_self]
  | case2 a b c d iha ihb =>
    obtain ⟨hleft, hright⟩ := Bool.and_eq_true_iff.mp h
    simp only [complement, same, iha hleft, ihb hright, Bool.and_self]
  | case3 a b ih => exact h
  | case4 p s q t =>
    obtain ⟨hproperty, htest⟩ := Bool.and_eq_true_iff.mp h
    rcases Test.complement?_same htest with ⟨hs, ht⟩ | ⟨s', t', hs, ht, hsame⟩
    · simp only [complement, hs, ht, same, hproperty, htest, Bool.and_self]
    · simp only [complement, hs, ht, same, hproperty, hsame, Bool.and_self]
  | case5 => exact absurd h Bool.false_ne_true

end Filter

end PropertyFilter
