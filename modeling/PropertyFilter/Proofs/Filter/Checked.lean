import PropertyFilter.Proofs.Filter.Reparsing

/-!
# What passes the check of tests

`Filter.fault?` says what is wrong with a property and a test: a blank name, else the first value
that is not usable, else a choice without values. Making a filter fails with just that, and
otherwise gives the test with each value of a choice once (`Filter.make_eq_elim`). What is made is
well formed (`Filter.wellFormed_of_make`), and what is well formed is made as it is
(`Filter.make_of_wellFormed`).
-/

set_option autoImplicit false

namespace PropertyFilter

open Expression (withoutRepeats)

namespace Test

/-- The values that a test compares with, in order. -/
def values : Test → List Value
  | .equals v => v.toList
  | .differs v => v.toList
  | .ordered _ bound => [bound]
  | .text _ _ => []
  | .present => []
  | .oneOf vs => vs

/-- What is wrong with a test; the property is named where a choice has no values. -/
def fault? (property : String) (t : Test) : Option InvalidFilter :=
  match t.values.find? fun v ↦ !v.isUsable with
  | some v => some (.unusableValue v)
  | none => if t = .oneOf [] then some (.noValues property) else none

theorem fault?_eq_none_iff (property : String) (t : Test) :
    t.fault? property = none ↔ (∀ v ∈ t.values, v.isUsable = true) ∧ t ≠ .oneOf [] := by
  unfold fault?
  split
  · next v hfound =>
    have hunusable := List.find?_some hfound
    have hmem := List.mem_of_find?_eq_some hfound
    simp only [reduceCtorEq, false_iff, not_and]
    intro husable
    simp [husable v hmem] at hunusable
  · next hfound =>
    have husable : ∀ v ∈ t.values, v.isUsable = true := by simpa using hfound
    simp only [ite_eq_right_iff, reduceCtorEq, imp_false, ne_eq, iff_and_self]
    exact fun _ ↦ husable

theorem keepDistinct_of_find? {vs : List Value} {v : Value} (kept : List Value)
    (h : (vs.find? fun w ↦ !w.isUsable) = some v) :
    keepDistinct kept vs = .error (.unusableValue v) := by
  induction vs generalizing kept with
  | nil => cases h
  | cons w vs ih =>
    by_cases hw : w.isUsable = true
    · rw [List.find?_cons_of_neg (by simp [hw])] at h
      simp only [keepDistinct, checkValue, if_pos hw, ih _ h]
    · rw [List.find?_cons_of_pos (by simpa using hw)] at h
      cases h
      simp only [keepDistinct, checkValue, if_neg hw]

/-- The check of a choice of usable values drops the repeated ones. -/
theorem check_oneOf {property : String} {vs : List Value} (hne : vs ≠ [])
    (husable : ∀ v ∈ vs, v.isUsable = true) :
    check property (.oneOf vs) = .ok (withoutRepeats (.oneOf vs)) := by
  have hdistinct := Expression.keepDistinct_eq husable []
  obtain ⟨v, others, rfl⟩ := List.exists_cons_of_ne_nil hne
  rw [List.reverse_nil, ← List.eraseDupsBy, List.eraseDupsBy_cons] at hdistinct
  simp only [check, hdistinct, withoutRepeats, List.eraseDupsBy_cons]

/-- The check finds what is wrong, and nothing else. -/
theorem check_eq_elim (property : String) (t : Test) :
    t.check property = (t.fault? property).elim (.ok (withoutRepeats t)) .error := by
  cases t with
  | equals v =>
    cases v with
    | none => rfl
    | some v =>
      cases hv : v.isUsable <;>
        simp [check, checkValue, fault?, values, hv, withoutRepeats, Except.map]
  | differs v =>
    cases v with
    | none => rfl
    | some v =>
      cases hv : v.isUsable <;>
        simp [check, checkValue, fault?, values, hv, withoutRepeats, Except.map]
  | ordered relation bound =>
    cases hv : bound.isUsable <;>
      simp [check, checkValue, fault?, values, hv, withoutRepeats, Except.map]
  | text test pattern => rfl
  | present => rfl
  | oneOf vs =>
    cases hfound : vs.find? fun w ↦ !w.isUsable with
    | some v => simp [check, fault?, values, hfound, keepDistinct_of_find? [] hfound]
    | none =>
      by_cases hne : vs = []
      · subst hne
        rfl
      · rw [check_oneOf hne (by simpa using hfound)]
        simp [fault?, values, hfound, hne]

/-- A test of usable values is well formed once repeated values are dropped. -/
theorem wellFormed_withoutRepeats {t : Test} (husable : ∀ v ∈ t.values, v.isUsable = true)
    (hne : t ≠ .oneOf []) : (withoutRepeats t).WellFormed := by
  cases t with
  | equals v => exact fun w hw ↦ husable w (by simpa [values] using hw)
  | differs v => exact fun w hw ↦ husable w (by simpa [values] using hw)
  | ordered relation bound => exact husable bound List.mem_cons_self
  | text test pattern => trivial
  | present => trivial
  | oneOf vs =>
    obtain ⟨v, others, rfl⟩ := List.exists_cons_of_ne_nil fun hnil ↦ hne (hnil ▸ rfl)
    refine ⟨?_, ?_, Expression.distinct_eraseDupsBy _⟩
    · rw [Expression.eraseDupsBy_same_cons]
      exact List.cons_ne_nil _ _
    · intro w hw
      exact husable w ((Expression.sublist_eraseDupsBy _).subset hw)

theorem usable_of_wellFormed {t : Test} (h : t.WellFormed) :
    (∀ v ∈ t.values, v.isUsable = true) ∧ t ≠ .oneOf [] := by
  cases t with
  | equals v => exact ⟨fun w hw ↦ h w (by simpa [values] using hw), nofun⟩
  | differs v => exact ⟨fun w hw ↦ h w (by simpa [values] using hw), nofun⟩
  | ordered relation bound => exact ⟨List.forall_mem_singleton.mpr h, nofun⟩
  | text test pattern => exact ⟨by simp [values], nofun⟩
  | present => exact ⟨by simp [values], nofun⟩
  | oneOf vs => exact ⟨h.2.1, fun hnil ↦ h.1 (Test.oneOf.inj hnil)⟩

theorem withoutRepeats_of_wellFormed {t : Test} (h : t.WellFormed) : withoutRepeats t = t := by
  cases t with
  | oneOf vs => rw [withoutRepeats, eraseDupsBy_of_distinct h.2.2]
  | _ => rfl

end Test

namespace Filter

/-- What is wrong with a property and a test of it. -/
def fault? (property : String) (t : Test) : Option InvalidFilter :=
  if Text.allBlank property.toList then some .blankProperty else t.fault? property

theorem fault?_eq_none_iff (property : String) (t : Test) :
    fault? property t = none ↔ Text.allBlank property.toList = false ∧
      (∀ v ∈ t.values, v.isUsable = true) ∧ t ≠ .oneOf [] := by
  cases hblank : Text.allBlank property.toList <;>
    simp [fault?, hblank, Test.fault?_eq_none_iff]

/-- A test is made, or there is something wrong with it. -/
theorem make_eq_elim (property : String) (t : Test) : make property t =
    (fault? property t).elim (.ok (.test property (withoutRepeats t))) .error := by
  cases hblank : Text.allBlank property.toList with
  | true => simp [make, checkProperty, fault?, hblank]
  | false =>
    have hmake : make property t = (t.check property).map (.test property) := by
      simp [make, checkProperty, hblank]
    have hfault : fault? property t = t.fault? property := by simp [fault?, hblank]
    rw [hmake, hfault, Test.check_eq_elim]
    cases t.fault? property <;> rfl

/-- What is made is the test with each value of a choice once, and there was nothing wrong. -/
theorem make_eq_ok_iff (property : String) (t : Test) (f : Filter) :
    make property t = .ok f ↔
      fault? property t = none ∧ f = .test property (withoutRepeats t) := by
  rw [make_eq_elim]
  cases fault? property t with
  | none => simp [eq_comm]
  | some fault => simp

theorem wellFormed_of_make {property : String} {t : Test} {f : Filter}
    (h : make property t = .ok f) : f.WellFormed := by
  obtain ⟨hfault, rfl⟩ := (make_eq_ok_iff property t f).mp h
  obtain ⟨hname, husable, hne⟩ := (fault?_eq_none_iff property t).mp hfault
  exact ⟨hname, Test.wellFormed_withoutRepeats husable hne⟩

theorem make_of_wellFormed {property : String} {t : Test}
    (h : (Filter.test property t).WellFormed) :
    make property t = .ok (.test property t) := by
  have hfault : fault? property t = none :=
    (fault?_eq_none_iff property t).mpr ⟨h.1, Test.usable_of_wellFormed h.2⟩
  rw [make_eq_ok_iff, Test.withoutRepeats_of_wellFormed h.2]
  exact ⟨hfault, rfl⟩

/-- A filter is well formed exactly if each of its tests is. -/
theorem wellFormed_iff (f : Filter) : f.WellFormed ↔
    ∀ p ∈ f.tests, Text.allBlank p.1.toList = false ∧ p.2.WellFormed := by
  induction f with
  | and a b iha ihb => rw [WellFormed, iha, ihb, tests, List.forall_mem_append]
  | or a b iha ihb => rw [WellFormed, iha, ihb, tests, List.forall_mem_append]
  | not a ih => exact ih
  | test property t => simp [WellFormed, tests]

end Filter

end PropertyFilter
