import PropertyFilter.Filter.Matching
import PropertyFilter.Proofs.Dialect.Scim

/-!
# What filters for provisioning ask when they are read back

Of the changes that a test undergoes on its way through the text for provisioning, a single one can
be seen by a record. A test for any value is written as one for presence, and presence is denied to
an empty text (`holds_strict_iff`). All else keeps its meaning: both representations of an integer
compare alike with every value (`Value.compare_eq_of_integer?`), and a choice of one value asks the
same as an equality.

So the filter that is read back gives the answers of the filter with presence in the place of any
value, and the answers of the filter itself to every record that has no empty text where a test asks
for any value (`query_and_parse_keeps_answers`).
-/

set_option autoImplicit false

namespace PropertyFilter

/-! ### Integers in either representation -/

namespace Value

variable {v w : Value} {i : Int}

/-- How a value compares with an integer does not depend on the representation of the integer. -/
theorem compare_eq_of_integer? (hv : v.integer? = some i) (hw : w.integer? = some i)
    (actual : Value) : actual.compare v = actual.compare w := by
  have hsame : v.integer? = w.integer? := hv.trans hw.symm
  cases v <;> cases w <;> simp only [integer?, reduceCtorEq] at hv hw
  all_goals cases actual <;> simp only [compare, hsame]

end Value

theorem Test.compared_eq_of_integer? {v w : Value} {i : Int} (hv : v.integer? = some i)
    (hw : w.integer? = some i) (actual : Option Value) :
    compared actual v = compared actual w := by
  unfold compared
  congr 1
  funext x
  rw [Value.converted_of_integer? hv, Value.converted_of_integer? hw,
    Value.compare_eq_of_integer? hv hw]

/-- Two changes of the tests of a filter cannot be told apart by a record whose properties pass the
one test where they pass the other. -/
theorem Filter.holds_mapTests_congr {change change' : Test → Test} {f : Filter} {r : Record}
    (h : ∀ p ∈ f.tests, (change p.2).holds (r p.1) = (change' p.2).holds (r p.1)) :
    (f.mapTests change).holds r = (f.mapTests change').holds r := by
  induction f with
  | and a b iha ihb =>
    rw [tests, List.forall_mem_append] at h
    rw [mapTests, mapTests, holds, holds, iha h.1, ihb h.2]
  | or a b iha ihb =>
    rw [tests, List.forall_mem_append] at h
    rw [mapTests, mapTests, holds, holds, iha h.1, ihb h.2]
  | not a ih => rw [mapTests, mapTests, holds, holds, ih h]
  | test property t =>
    rw [tests, List.forall_mem_singleton] at h
    exact h

namespace Scim

/-! ### Tests -/

/-- The test with presence in the place of any value. -/
def strict : Test → Test
  | .differs none => .present
  | t => t

/-- A test asks for less than presence only of an empty text. -/
theorem holds_strict_iff (t : Test) (actual : Option Value) :
    (strict t).holds actual = t.holds actual ↔
      ¬ (t = .differs none ∧ actual = some (.string "")) := by
  fun_cases strict t with
  | case1 =>
    cases actual with
    | none => simp [Test.holds, Test.equalToOption]
    | some v => cases v <;> simp [Test.holds, Test.equalToOption]
  | case2 _ hother =>
    simp only [true_iff, not_and]
    intro hdiffers
    exact absurd hdiffers hother

theorem compared_readBackValue {v : Value} (hv : ∀ t, v ≠ .dateTime t) (actual : Option Value) :
    Test.compared actual (readBackValue v) = Test.compared actual v := by
  cases v with
  | bigInt i => exact Test.compared_eq_of_integer? (Value.integer?_ofInt i) rfl actual
  | dateTime t => exact absurd rfl (hv t)
  | _ => rfl

theorem equalTo_readBackValue {v : Value} (hv : ∀ t, v ≠ .dateTime t) (actual : Option Value) :
    Test.equalTo actual (readBackValue v) = Test.equalTo actual v := by
  rw [Test.equalTo, compared_readBackValue hv, ← Test.equalTo]

/-- A test that is read back asks for presence where it asked for any value, and else the same. -/
theorem holds_readBack {t : Test} (hmoments : ∀ v ∈ valuesOf t, ∀ u, v ≠ .dateTime u)
    (hchoices : ∀ vs, t = .oneOf vs → ∃ v, vs = [v]) (actual : Option Value) :
    (readBack t).holds actual = (strict t).holds actual := by
  cases t with
  | equals v =>
    cases v with
    | none => rfl
    | some v => exact equalTo_readBackValue (hmoments v (by simp [valuesOf])) actual
  | differs v =>
    cases v with
    | none => rfl
    | some v =>
      have hequal := equalTo_readBackValue (hmoments v (by simp [valuesOf])) actual
      exact congrArg not hequal
  | ordered relation bound =>
    have hcompared := compared_readBackValue (hmoments bound (by simp [valuesOf])) actual
    exact congrArg (fun order ↦ Option.any relation.holds order) hcompared
  | text test pattern => rfl
  | present => rfl
  | oneOf vs =>
    obtain ⟨v, rfl⟩ := hchoices vs rfl
    have hequal := equalTo_readBackValue (hmoments v (by simp [valuesOf])) actual
    simp only [readBack, strict, Test.holds, Test.equalToOption, hequal, List.any_cons,
      List.any_nil, Bool.or_false]

/-! ### Filters -/

/-- The filters that the text for provisioning can carry as they are, points in time apart: their
properties have names, their tests are sound, and they nest no deeper than texts may. -/
structure Carried (f : Filter) : Prop where
  names : ∀ p ∈ f.tests, Lexeme.IsName p.1.toList
  wellFormed : f.WellFormed
  moments : ∀ p ∈ f.tests, ∀ v ∈ valuesOf p.2, ∀ t, v ≠ .dateTime t
  choices : ∀ p ∈ f.tests, ∀ vs, p.2 = .oneOf vs → ∃ v, vs = [v]
  nesting : f.nesting ≤ 256

theorem Carried.query_and_parse {f : Filter} (hf : Carried f) :
    ∃ text, query f = .ok text ∧
      Filter.parse (String.ofList text) = .ok (f.mapTests readBack) := by
  have hrendered : ∀ p ∈ f.tests, Rendered p.2 := by
    intro p hp
    exact rendered_of_choices (hf.choices p hp)
  have hquery : query f = .ok (f.layout asked) := (query_eq_ok_iff f _).mpr ⟨hrendered, rfl⟩
  exact ⟨f.layout asked, hquery, parse_query hf.names hf.wellFormed hf.nesting hquery⟩

/-- A filter is rendered, and what is read back answers every record as the filter with presence in
the place of any value does. That is the answer of the filter itself, unless a test asks for any
value of a property that has an empty text. -/
theorem query_and_parse_keeps_answers {f : Filter} (hf : Carried f) :
    ∃ text g, query f = .ok text ∧ Filter.parse (String.ofList text) = .ok g ∧
      ∀ r : Record, g.holds r = (f.mapTests strict).holds r ∧
        ((∀ p ∈ f.tests, p.2 = .differs none → r p.1 ≠ some (.string "")) →
          g.holds r = f.holds r) := by
  obtain ⟨text, hquery, hparse⟩ := hf.query_and_parse
  refine ⟨text, f.mapTests readBack, hquery, hparse, ?_⟩
  intro r
  have hstrict : (f.mapTests readBack).holds r = (f.mapTests strict).holds r := by
    apply Filter.holds_mapTests_congr
    intro p hp
    exact holds_readBack (hf.moments p hp) (hf.choices p hp) (r p.1)
  refine ⟨hstrict, ?_⟩
  intro hempty
  have hsame : (f.mapTests strict).holds r = (f.mapTests id).holds r := by
    apply Filter.holds_mapTests_congr
    intro p hp
    apply (holds_strict_iff p.2 (r p.1)).mpr
    rintro ⟨hdiffers, hactual⟩
    exact hempty p hp hdiffers hactual
  rw [hstrict, hsame, Filter.mapTests_id]

/-- A negated test for any value of a property that is absent, beside an empty text elsewhere. -/
theorem query_and_parse_keeps_answers_negated :
    ∃ text g, query (.and (.not (.test "not" (.differs none)))
        (.test "a.b" (.oneOf [.bigInt 7]))) = .ok text ∧
      Filter.parse (String.ofList text) = .ok g ∧
      g.holds (Record.ofJson (.object [("a", .object [("b", .integer 7)]), ("c", .string "")])) =
        true := by
  generalize hrecord : Record.ofJson _ = r
  have hcarried : Carried (.and (.not (.test "not" (.differs none)))
      (.test "a.b" (.oneOf [.bigInt 7]))) := by
    have hname : Lexeme.IsName "b".toList := .of_isSegment rfl
    have hdotted : Lexeme.IsName ("a".toList ++ '.' :: "b".toList) := hname.point rfl
    constructor
    · simp only [Filter.tests, List.cons_append, List.nil_append, List.forall_mem_cons]
      exact ⟨Filter.isName_not, hdotted, by simp⟩
    · simp [Filter.WellFormed, Test.WellFormed, Test.Distinct, Value.isUsable]
      decide
    · simp [Filter.tests, valuesOf]
    · simp [Filter.tests]
    · decide
  obtain ⟨text, g, hquery, hparse, hanswers⟩ := query_and_parse_keeps_answers hcarried
  refine ⟨text, g, hquery, hparse, ?_⟩
  rw [(hanswers r).2 ?_]
  · subst hrecord
    decide
  · subst hrecord
    simp only [Filter.tests, List.cons_append, List.nil_append, List.forall_mem_cons]
    have habsent : Record.ofJson (.object [("a", .object [("b", .integer 7)]), ("c", .string "")])
        "not" ≠ some (.string "") := by decide
    exact ⟨fun _ ↦ habsent, by simp, by simp⟩

/-- A filter that can be carried asks for any value, which an empty text is, and what is read back
asks for presence, which an empty text has not. -/
theorem query_and_parse_loses_empty_text :
    Carried (.test "manager" (.differs none)) ∧
      query (.test "manager" (.differs none)) = .ok "manager pr".toList ∧
      Filter.parse "manager pr" = .ok (.test "manager" .present) ∧
      (Filter.test "manager" (.differs none)).holds
        (Record.ofJson (.object [("manager", .string "")])) = true ∧
      (Filter.test "manager" .present).holds
        (Record.ofJson (.object [("manager", .string "")])) = false := by
  have hcarried : Carried (.test "manager" (.differs none)) := by
    have hname : Lexeme.IsName "manager".toList := .of_isSegment rfl
    constructor
    · simpa [Filter.tests] using hname
    · simp [Filter.WellFormed, Test.WellFormed]
      decide
    · simp [Filter.tests, valuesOf]
    · simp [Filter.tests]
    · decide
  refine ⟨hcarried, rfl, ?_, by decide, by decide⟩
  exact parse_query hcarried.names hcarried.wellFormed hcarried.nesting rfl

end Scim

end PropertyFilter
