import PropertyFilter.Proofs.Dialect.Ldap.Chains
import PropertyFilter.Proofs.Filter.Checked
import PropertyFilter.Proofs.Value.Same

/-!
# Choices are alternatives

A choice of values asks what the equalities with the values ask, joined by `or`. The choice keeps
one of several values that are equal as data, and the equalities keep all of them; since values that
are equal as data equal the same properties, no record tells the two apart (`any_eraseDupsBy`,
`holds_of_any?`). A directory is asked for both in the same words, once each value is there a
single time, because operands joined alike become one group (`ofFilter_of_any?`).
-/

set_option autoImplicit false

namespace PropertyFilter

namespace Filter

/-! ### Alternatives -/

/-- The equalities of a property with each of the values. -/
def equalities (property : String) (vs : List Value) : Except InvalidFilter (List Filter) :=
  vs.mapM fun v ↦ make property (.equals (some v))

/-- The equalities of a property with each of the values, joined by `or`. -/
def alternatives (property : String) (vs : List Value) : Except InvalidFilter (Option Filter) :=
  (equalities property vs).map any?

theorem make_equals {property : String} (hname : Text.allBlank property.toList = false) {v : Value}
    (husable : v.isUsable = true) :
    make property (.equals (some v)) = .ok (.test property (.equals (some v))) := by
  have hwell : (Filter.test property (.equals (some v))).WellFormed :=
    ⟨hname, by simpa [Test.WellFormed] using husable⟩
  exact make_of_wellFormed hwell

theorem equalities_eq {property : String} (hname : Text.allBlank property.toList = false)
    {vs : List Value} (husable : ∀ v ∈ vs, v.isUsable = true) :
    equalities property vs = .ok (vs.map fun v ↦ .test property (.equals (some v))) := by
  induction vs with
  | nil => rfl
  | cons v vs ih =>
    rw [List.forall_mem_cons] at husable
    have hrest := ih husable.2
    unfold equalities at hrest ⊢
    rw [List.mapM_cons, make_equals hname husable.1, hrest]
    rfl

/-- Filters can be joined unless there are none. -/
theorem exists_any? {fs : List Filter} (h : fs ≠ []) : ∃ f, any? fs = some f := by
  obtain ⟨f, others, rfl⟩ := List.exists_cons_of_ne_nil h
  exact ⟨_, rfl⟩

/-- A property without a name fails the first of the equalities. -/
theorem alternatives_of_allBlank {property : String} (hname : Text.allBlank property.toList = true)
    {vs : List Value} (hne : vs ≠ []) : alternatives property vs = .error .blankProperty := by
  obtain ⟨v, others, rfl⟩ := List.exists_cons_of_ne_nil hne
  have hmake : make property (.equals (some v)) = .error .blankProperty := by
    simp [make, checkProperty, hname]
  rw [alternatives, equalities, List.mapM_cons, hmake]
  rfl

/-- The equalities with usable values can be joined, unless there are no values. -/
theorem exists_alternatives {property : String} (hname : Text.allBlank property.toList = false)
    {vs : List Value} (hne : vs ≠ []) (husable : ∀ v ∈ vs, v.isUsable = true) :
    ∃ f, alternatives property vs = .ok (some f) ∧
      any? (vs.map fun v ↦ .test property (.equals (some v))) = some f := by
  obtain ⟨f, hf⟩ := exists_any? (mt List.map_eq_nil_iff.mp hne)
  refine ⟨f, ?_, hf⟩
  rw [alternatives, equalities_eq hname husable, Except.map, hf]

/-! ### Records -/

theorem holds_foldl_or (f : Filter) (fs : List Filter) (r : Record) :
    (fs.foldl .or f).holds r = (f.holds r || fs.any (·.holds r)) := by
  induction fs generalizing f with
  | nil => simp
  | cons g gs ih => rw [List.foldl_cons, ih, holds, List.any_cons, Bool.or_assoc]

/-- Filters joined by `or` are satisfied by what satisfies any of them. -/
theorem holds_of_any? {f : Filter} {fs : List Filter} (h : any? fs = some f) (r : Record) :
    f.holds r = fs.any (·.holds r) := by
  cases fs with
  | nil => cases h
  | cons g gs =>
    cases h
    rw [holds_foldl_or, List.any_cons]

/-- Leaving out values that are equal as data to an earlier one leaves out nothing for a test that
does not tell such values apart. -/
theorem any_eraseDupsBy {p : Value → Bool} (hp : ∀ v w, v.same w = true → p v = p w)
    (vs : List Value) : (vs.eraseDupsBy fun v kept ↦ kept.same v).any p = vs.any p := by
  match vs with
  | [] => rfl
  | v :: vs =>
    rw [Expression.eraseDupsBy_same_cons, List.any_cons, List.any_cons, any_eraseDupsBy hp]
    cases hv : p v with
    | true => rfl
    | false =>
      -- What was left out is equal to `v`, so it fails the test as `v` does.
      rw [Bool.false_or, Bool.false_or, List.any_filter]
      congr 1
      funext w
      cases hsame : v.same w with
      | true => simp [← hp v w hsame, hv]
      | false => simp
termination_by vs.length
decreasing_by
  exact Nat.lt_succ_of_le (List.length_filter_le _ _)

theorem holds_oneOf_withoutRepeats (vs : List Value) (actual : Option Value) :
    (Test.oneOf (vs.eraseDupsBy fun v kept ↦ kept.same v)).holds actual =
      vs.any (Test.equalTo actual) :=
  any_eraseDupsBy (fun _ _ hsame ↦ Test.equalTo_eq_of_same hsame actual) vs

end Filter

/-! ### Searches -/

namespace Ldap.Search

/-- Two or more filters joined by `or` are searched for as one group. -/
theorem ofFilter_of_any? {f : Filter} {fs : List Filter} (h : Filter.any? fs = some f)
    (hmany : 2 ≤ fs.length) : ofFilter f = .group .any (fs.flatMap disjuncts) := by
  have hjoined : Join.any.joinAll? fs = some f := h
  exact ofFilter_of_joinAll? hjoined hmany

end Ldap.Search

namespace Filter

theorem ofFilter_oneOf (property : String) (vs : List Value) :
    Ldap.Search.ofFilter (.test property (.oneOf vs)) =
      .group .any ((vs.map fun v ↦ .test property (.equals (some v))).flatMap
        Ldap.Search.disjuncts) := by
  rw [List.flatMap_map]
  exact congrArg (Ldap.Search.group .any) List.map_eq_flatMap

/-! ### Choices -/

/-- A choice of usable values is made where the equalities with them are. No record tells it apart
from these equalities joined by `or`, and a directory is asked for it as for the equalities with
the values that are left, if there are two or more. -/
theorem oneOf_eq_alternatives {property : String} {vs : List Value} (hne : vs ≠ [])
    (husable : ∀ v ∈ vs, v.isUsable = true) :
    (Text.allBlank property.toList = true →
      make property (.oneOf vs) = .error .blankProperty ∧
        alternatives property vs = .error .blankProperty) ∧
    (Text.allBlank property.toList = false →
      ∃ choice chain, make property (.oneOf vs) = .ok choice ∧
        alternatives property vs = .ok (some chain) ∧
        (∀ r, choice.holds r = chain.holds r) ∧
        (2 ≤ (vs.eraseDupsBy fun v kept ↦ kept.same v).length →
          ∃ short, alternatives property (vs.eraseDupsBy fun v kept ↦ kept.same v) =
              .ok (some short) ∧ choice.query .ldap = short.query .ldap)) := by
  refine ⟨fun hblank ↦ ⟨by simp [make, checkProperty, hblank],
    alternatives_of_allBlank hblank hne⟩, fun hname ↦ ?_⟩
  have hmake : make property (.oneOf vs) =
      .ok (.test property (.oneOf (vs.eraseDupsBy fun v kept ↦ kept.same v))) := by
    simp [make, checkProperty, hname, Test.check_oneOf hne husable, Except.map,
      Expression.withoutRepeats]
  obtain ⟨chain, hchain, hjoined⟩ := exists_alternatives hname hne husable
  refine ⟨_, chain, hmake, hchain, fun r ↦ ?_, fun hmany ↦ ?_⟩
  · rw [holds_of_any? hjoined, holds, holds_oneOf_withoutRepeats, List.any_map]
    rfl
  · generalize hkept : (vs.eraseDupsBy fun v kept ↦ kept.same v) = kept at hmany ⊢
    have hkeptUsable : ∀ w ∈ kept, w.isUsable = true := by
      intro w hw
      rw [← hkept] at hw
      exact husable w ((Expression.sublist_eraseDupsBy _).subset hw)
    have hkeptNe : kept ≠ [] := List.ne_nil_of_length_pos (Nat.lt_of_lt_of_le Nat.two_pos hmany)
    obtain ⟨short, hshort, hshortJoined⟩ := exists_alternatives hname hkeptNe hkeptUsable
    refine ⟨short, hshort, ?_⟩
    rw [query, query, Ldap.query, Ldap.query, ofFilter_oneOf,
      Ldap.Search.ofFilter_of_any? hshortJoined (by rwa [List.length_map])]

/-- Of both zeros the first is kept, of the representations of five each; the choice and the
equalities are both made, and asked for in the same words. -/
theorem oneOf_eq_alternatives_zeros :
    ∃ vs : List Value, vs = [.float (.zero false), .string "x", .float (.zero true), .int 5,
        .bigInt 5] ∧ vs ≠ [] ∧ (∀ v ∈ vs, v.isUsable = true) ∧
      Text.allBlank "dept".toList = false ∧
      2 ≤ (vs.eraseDupsBy fun v kept ↦ kept.same v).length ∧
      ∃ choice chain, make "dept" (.oneOf vs) = .ok choice ∧
        alternatives "dept" vs = .ok (some chain) ∧ (∀ r, choice.holds r = chain.holds r) ∧
        ∃ short, alternatives "dept" [.float (.zero false), .string "x", .int 5, .bigInt 5] =
            .ok (some short) ∧ choice.query .ldap = short.query .ldap := by
  have hname : Text.allBlank "dept".toList = false := by decide
  have hne : ([.float (.zero false), .string "x", .float (.zero true), .int 5, .bigInt 5] :
      List Value) ≠ [] := by decide
  refine ⟨_, rfl, hne, by decide, hname, by decide, ?_⟩
  obtain ⟨choice, chain, hchoice, hchain, hholds, hquery⟩ :=
    (oneOf_eq_alternatives hne (by decide)).2 hname
  exact ⟨choice, chain, hchoice, hchain, hholds, hquery (by decide)⟩

end Filter

end PropertyFilter
