import PropertyFilter.Dialect.Query
import PropertyFilter.Proofs.Filter.NormalForm

/-!
# What the dialects can express

Query parameters and searches of directories express every filter. A filter for provisioning has no
way to ask for one of several values, so the first such choice from the left is what its query fails
with (`Scim.failure?_query`).

Normalizing does not change which choice that is. Complements keep the tests of a tree in their
order and change none that is a choice (`inexpressible?_complement`), and an operand is left out
only behind one that is equal to it and fails in the same way (`inexpressible?_of_same`).
-/

set_option autoImplicit false

namespace PropertyFilter

/-- What a computation fails with. -/
def failure? {ε α : Type} : Except ε α → Option ε
  | .ok _ => none
  | .error e => some e

theorem failure?_eq_some_iff {ε α : Type} (x : Except ε α) (e : ε) :
    failure? x = some e ↔ x = .error e := by
  cases x <;> simp [failure?]

/-- What is wrong with a test of a property for provisioning: it is a choice of several values. -/
def Test.inexpressible? (property : String) : Test → Option FilterError
  | .oneOf vs => if 1 < vs.length then some (.inexpressible .scim property vs.length) else none
  | _ => none

theorem Test.inexpressible?_eq_some_iff (property : String) (t : Test) (e : FilterError) :
    t.inexpressible? property = some e ↔
      ∃ vs, t = .oneOf vs ∧ 1 < vs.length ∧ e = .inexpressible .scim property vs.length := by
  cases t with
  | oneOf vs => simp [inexpressible?, eq_comm]
  | _ => simp [inexpressible?]

theorem Test.isSome_inexpressible?_iff (property : String) (t : Test) :
    (t.inexpressible? property).isSome = true ↔ ∃ vs, t = .oneOf vs ∧ 1 < vs.length := by
  cases t with
  | oneOf vs => simp [inexpressible?]
  | _ => simp [inexpressible?]

theorem Test.inexpressible?_eq_none_iff (property : String) (t : Test) :
    t.inexpressible? property = none ↔ ∀ vs, t = .oneOf vs → vs.length ≤ 1 := by
  rw [← Option.not_isSome_iff_eq_none, isSome_inexpressible?_iff]
  simp

namespace Filter

/-- What is wrong with the first of the tests that cannot be expressed for provisioning. -/
def inexpressible? (f : Filter) : Option FilterError :=
  f.tests.findSome? fun p ↦ p.2.inexpressible? p.1

theorem inexpressible?_and (a b : Filter) :
    (and a b).inexpressible? = a.inexpressible?.or b.inexpressible? := List.findSome?_append

theorem inexpressible?_or (a b : Filter) :
    (or a b).inexpressible? = a.inexpressible?.or b.inexpressible? := List.findSome?_append

theorem inexpressible?_not (a : Filter) : (not a).inexpressible? = a.inexpressible? := rfl

theorem inexpressible?_test (property : String) (t : Test) :
    (test property t).inexpressible? = t.inexpressible? property := by
  rw [inexpressible?, tests, List.findSome?_singleton]

end Filter

/-! ### Queries that fail -/

/-- The query fails with the first test that cannot be expressed, whatever comes after it. -/
theorem Scim.failure?_query {f : Filter} (hwell : f.WellFormed) :
    failure? (query f) = f.inexpressible? := by
  induction f with
  | and a b iha ihb =>
    rw [Filter.inexpressible?_and, ← iha hwell.1, ← ihb hwell.2, query]
    cases query a <;> cases query b <;> rfl
  | or a b iha ihb =>
    rw [Filter.inexpressible?_or, ← iha hwell.1, ← ihb hwell.2, query]
    cases query a <;> cases query b <;> rfl
  | not a ih =>
    rw [Filter.inexpressible?_not, ← ih hwell, query]
    cases query a <;> rfl
  | test property t =>
    rw [Filter.inexpressible?_test, query]
    cases t with
    | equals v => cases v <;> rfl
    | differs v => cases v <;> rfl
    | ordered relation bound => rfl
    | text test pattern => rfl
    | present => rfl
    | oneOf vs =>
      obtain - | ⟨v, - | ⟨w, others⟩⟩ := vs
      · exact absurd rfl hwell.2.1
      · rfl
      · simp [predicate, failure?, Test.inexpressible?]

/-! ### Normal forms -/

namespace Test

theorem length_eq_of_sameList {vs ws : List Value} (h : sameList vs ws = true) :
    vs.length = ws.length := by
  fun_induction sameList vs ws with
  | case1 v vs w ws ih => simp [ih (Bool.and_eq_true_iff.mp h).2]
  | case2 => rfl
  | case3 => exact absurd h Bool.false_ne_true

theorem inexpressible?_of_same {t u : Test} (h : t.same u = true) (property : String) :
    t.inexpressible? property = u.inexpressible? property := by
  cases t <;> cases u <;> try rfl
  case oneOf.oneOf vs ws =>
    have hlength : vs.length = ws.length := length_eq_of_sameList h
    rw [inexpressible?, inexpressible?, hlength]
  all_goals exact absurd h Bool.false_ne_true

/-- A test that has a complement is no choice, and neither is the complement. -/
theorem inexpressible?_of_complement? {t opposite : Test} (h : t.complement? = some opposite)
    (property : String) : opposite.inexpressible? property = t.inexpressible? property := by
  cases t <;> cases h <;> rfl

theorem inexpressible?_simplify (t : Test) (property : String) :
    t.simplify.inexpressible? property = t.inexpressible? property := by
  fun_cases simplify t <;> rfl

end Test

namespace Filter

theorem inexpressible?_of_same {f g : Filter} (h : f.same g = true) :
    f.inexpressible? = g.inexpressible? := by
  fun_induction same f g with
  | case1 a b c d iha ihb =>
    obtain ⟨hleft, hright⟩ := Bool.and_eq_true_iff.mp h
    rw [inexpressible?_and, inexpressible?_and, iha hleft, ihb hright]
  | case2 a b c d iha ihb =>
    obtain ⟨hleft, hright⟩ := Bool.and_eq_true_iff.mp h
    rw [inexpressible?_or, inexpressible?_or, iha hleft, ihb hright]
  | case3 a b ih => exact ih h
  | case4 p s q t =>
    obtain ⟨hproperty, htest⟩ := Bool.and_eq_true_iff.mp h
    rw [inexpressible?_test, inexpressible?_test, eq_of_beq hproperty,
      Test.inexpressible?_of_same htest]
  | case5 => exact absurd h Bool.false_ne_true

theorem inexpressible?_complement (f : Filter) :
    f.complement.inexpressible? = f.inexpressible? := by
  induction f with
  | and a b iha ihb => rw [complement, inexpressible?_or, iha, ihb, inexpressible?_and]
  | or a b iha ihb => rw [complement, inexpressible?_and, iha, ihb, inexpressible?_or]
  | not a ih => rfl
  | test property t =>
    rw [complement]
    split
    · next opposite hopposite =>
      rw [inexpressible?_test, inexpressible?_test, Test.inexpressible?_of_complement? hopposite]
    · rfl

/-- An operand that is left out fails in the way of the one that is kept. -/
theorem inexpressible?_joined {join : Filter → Filter → Filter}
    (hjoin : ∀ a b, (join a b).inexpressible? = a.inexpressible?.or b.inexpressible?)
    (collapse : Bool) (a b : Filter) :
    (joined collapse join a b).inexpressible? = a.inexpressible?.or b.inexpressible? := by
  rcases joined_cases collapse join a b with ⟨heq, -, hsame⟩ | ⟨heq, -⟩
  · rw [heq, ← inexpressible?_of_same hsame, Option.or_self]
  · rw [heq, hjoin]

theorem inexpressible?_normalize (collapse : Bool) (f : Filter) :
    (f.normalize collapse).inexpressible? = f.inexpressible? := by
  induction f with
  | and a b iha ihb =>
    rw [normalize, inexpressible?_joined inexpressible?_and, iha, ihb, inexpressible?_and]
  | or a b iha ihb =>
    rw [normalize, inexpressible?_joined inexpressible?_or, iha, ihb, inexpressible?_or]
  | not a ih => rw [normalize, inexpressible?_complement, ih, inexpressible?_not]
  | test property t =>
    rw [normalize, inexpressible?_test, inexpressible?_test, Test.inexpressible?_simplify]

/-! ### Dialects -/

theorem query_scim_eq_error_iff {f : Filter} (hwell : f.WellFormed) (e : FilterError) :
    f.query .scim = .error e ↔ f.inexpressible? = some e := by
  rw [← Scim.failure?_query hwell, failure?_eq_some_iff, query]
  cases Scim.query f <;> simp [Except.map]

/-- Query parameters and searches express every filter. Filters for provisioning express all but
those with a choice of several values, and fail with the first of these; so does the normal form. -/
theorem query_succeeds_or_first_choice {f : Filter} (hwell : f.WellFormed) :
    (∃ text, f.query .graph = .ok text) ∧ (∃ text, f.query .ldap = .ok text) ∧
      ((∃ e, f.query .scim = .error e) ↔
        ∃ property vs, (property, Test.oneOf vs) ∈ f.tests ∧ 1 < vs.length) ∧
      (∀ e, f.query .scim = .error e ↔ ∃ before property vs after,
        f.tests = before ++ (property, .oneOf vs) :: after ∧ 1 < vs.length ∧
          (∀ p ∈ before, ∀ ws, p.2 = .oneOf ws → ws.length ≤ 1) ∧
          e = .inexpressible .scim property vs.length) ∧
      ∀ collapse e, (f.normalize collapse).query .scim = .error e ↔ f.query .scim = .error e := by
  refine ⟨⟨_, rfl⟩, ⟨_, rfl⟩, ?_, fun e ↦ ?_, fun collapse e ↦ ?_⟩
  · simp only [query_scim_eq_error_iff hwell, ← Option.isSome_iff_exists, inexpressible?,
      List.findSome?_isSome_iff, Test.isSome_inexpressible?_iff]
    constructor
    · rintro ⟨⟨property, t⟩, hmem, vs, rfl, hmany⟩
      exact ⟨property, vs, hmem, hmany⟩
    · rintro ⟨property, vs, hmem, hmany⟩
      exact ⟨_, hmem, vs, rfl, hmany⟩
  · rw [query_scim_eq_error_iff hwell, inexpressible?, List.findSome?_eq_some_iff]
    simp only [Test.inexpressible?_eq_some_iff, Test.inexpressible?_eq_none_iff]
    constructor
    · rintro ⟨before, ⟨property, t⟩, after, htests, ⟨vs, rfl, hmany, he⟩, hbefore⟩
      exact ⟨before, property, vs, after, htests, hmany, hbefore, he⟩
    · rintro ⟨before, property, vs, after, htests, hmany, hbefore, he⟩
      exact ⟨before, _, after, htests, ⟨vs, rfl, hmany, he⟩, hbefore⟩
  · rw [query_scim_eq_error_iff (wellFormed_normalize collapse hwell),
      query_scim_eq_error_iff hwell, inexpressible?_normalize]

/-- Two choices of several values that are equal as data under a negation: one of them is left out
of the normal form, which fails with the other, the first. -/
theorem query_succeeds_or_first_choice_repeated :
    ∃ f : Filter, f = .not (.and (.test "a" (.oneOf [.int 1]))
        (.or (.test "b" (.oneOf [.int 1, .float (.zero false)]))
          (.test "b" (.oneOf [.int 1, .float (.zero true)])))) ∧ f.WellFormed ∧
      f.query .scim = .error (.inexpressible .scim "b" 2) ∧
      (f.normalize true).query .scim = .error (.inexpressible .scim "b" 2) ∧
      (f.normalize true).tests.length = 2 := by
  have hwell : (not (.and (.test "a" (.oneOf [.int 1]))
      (.or (.test "b" (.oneOf [.int 1, .float (.zero false)]))
        (.test "b" (.oneOf [.int 1, .float (.zero true)]))))).WellFormed := by
    refine ⟨⟨by decide, by decide, by decide, List.pairwise_singleton _ _⟩,
      ⟨by decide, by decide, by decide, ?_⟩, ⟨by decide, by decide, by decide, ?_⟩⟩
    · exact List.pairwise_pair.mpr rfl
    · exact List.pairwise_pair.mpr rfl
  obtain ⟨-, -, -, hfirst, hnormal⟩ := query_succeeds_or_first_choice hwell
  have hquery := (hfirst (.inexpressible .scim "b" 2)).mpr
    ⟨[("a", .oneOf [.int 1])], "b", [.int 1, .float (.zero false)],
      [("b", .oneOf [.int 1, .float (.zero true)])], rfl, by decide, by simp, rfl⟩
  exact ⟨_, rfl, hwell, hquery, (hnormal true _).mpr hquery, by decide⟩

end Filter

end PropertyFilter
