import PropertyFilter.Filter.Checked
import PropertyFilter.Proofs.Value.Same

/-!
# What pushing negations down keeps

An ordering test whose property is absent, or is not comparable with the bound, is not passed, and
neither is its complement. So the normal form, which replaces a negated ordering test by its
complement, reads such a test as passed wherever it stands under an odd number of negations, while
the filter itself reads it as not passed.

`Filter.MayAnswer` leaves the reading of these tests open, one by one, and a filter is `Settled` by
a record if its answer does not depend on them. The filter itself gives the greatest of the possible
answers (`holds_of_mayAnswer`) and the normal form the least
(`of_normalizedAnswer_of_mayAnswer`), so the two agree exactly on the records that settle the filter
(`normalize_keeps_answers_iff_settled`). A negated comparison with an absent property is not settled
(`normalize_loses_record_without_property`).

Which of the possible answers the normal form gives is decided test by test, so it is the same
whether repeated operands are left out or not (`holds_normalize_collapse`).
-/

set_option autoImplicit false

namespace PropertyFilter

/-- Whether the test orders the property by a bound that its value, if there is one, is not
comparable with. -/
def Test.isUnanswered (actual : Option Value) : Test → Bool
  | .ordered _ bound => (compared actual bound).isNone
  | _ => false

namespace Filter

/-- The answers that a filter may give to a record if every unanswered test that stands under an odd
number of negations may count as passed or as not passed. The filter itself stands under an odd
number of negations if it is `negated`. -/
def MayAnswer (r : Record) : (negated : Bool) → Filter → Bool → Prop
  | negated, .and a b, answer =>
    ∃ x y, a.MayAnswer r negated x ∧ b.MayAnswer r negated y ∧ answer = (x && y)
  | negated, .or a b, answer =>
    ∃ x y, a.MayAnswer r negated x ∧ b.MayAnswer r negated y ∧ answer = (x || y)
  | negated, .not a, answer => a.MayAnswer r (!negated) (!answer)
  | negated, .test property t, answer =>
    answer = t.holds (r property) ∨ (negated = true ∧ t.isUnanswered (r property) = true)

/-- The answer of the filter does not depend on how unanswered tests under an odd number of
negations are read. -/
def Settled (r : Record) (f : Filter) : Prop :=
  ∀ answer, f.MayAnswer r false answer → answer = f.holds r

/-- Negations stand only above tests without a complement. -/
def NegatesTests : Filter → Prop
  | .and a b => a.NegatesTests ∧ b.NegatesTests
  | .or a b => a.NegatesTests ∧ b.NegatesTests
  | .not (.test _ t) => t.complement? = none
  | .not _ => False
  | .test _ _ => True

end Filter

/-! ### Complements -/

namespace Test

/-- The complement of a complement is the test itself. -/
theorem complement?_of_complement? {t opposite : Test} (h : t.complement? = some opposite) :
    opposite.complement? = some t := by
  cases t <;> simp only [complement?, Option.some.injEq, reduceCtorEq] at h
  case equals value => rw [← h]; rfl
  case differs value => rw [← h]; rfl
  case ordered relation bound =>
    rw [← h, complement?, Relation.complement_complement]

/-- A complement is passed exactly where the test is not passed, unless the test is unanswered, when
neither is passed. -/
theorem holds_complement? {t opposite : Test} (h : t.complement? = some opposite)
    (actual : Option Value) :
    opposite.holds actual = (!t.holds actual && !t.isUnanswered actual) := by
  cases t <;> simp only [complement?, Option.some.injEq, reduceCtorEq] at h
  case equals value => simp [← h, holds, isUnanswered]
  case differs value => simp [← h, holds, isUnanswered]
  case ordered relation bound =>
    simp only [← h, holds, isUnanswered]
    cases compared actual bound with
    | none => rfl
    | some order => simp [Relation.holds_complement]

theorem not_isUnanswered_of_complement?_eq_none {t : Test} (h : t.complement? = none)
    (actual : Option Value) : t.isUnanswered actual = false := by
  cases t <;> simp only [complement?, reduceCtorEq] at h <;> rfl

theorem holds_of_isUnanswered {t : Test} {actual : Option Value}
    (h : t.isUnanswered actual = true) : t.holds actual = false := by
  cases t <;> simp only [isUnanswered, Bool.false_eq_true] at h
  case ordered relation bound => rw [holds, Option.isNone_iff_eq_none.mp h, Option.any_none]

/-- A choice of one value asks the same as the equality that it becomes. -/
theorem holds_simplify (t : Test) (actual : Option Value) :
    t.simplify.holds actual = t.holds actual := by
  fun_cases simplify t with
  | case1 value => simp [holds, equalToOption]
  | case2 => rfl

theorem isUnanswered_simplify (t : Test) (actual : Option Value) :
    t.simplify.isUnanswered actual = t.isUnanswered actual := by
  fun_cases simplify t <;> rfl

end Test

namespace Filter

variable {r : Record} {collapse : Bool}

theorem negatesTests_complement {f : Filter} (h : f.NegatesTests) :
    f.complement.NegatesTests := by
  fun_induction complement f with
  | case1 a b iha ihb => exact ⟨iha h.1, ihb h.2⟩
  | case2 a b iha ihb => exact ⟨iha h.1, ihb h.2⟩
  | case3 a =>
    cases a with
    | test property t => trivial
    | and a b => exact h.elim
    | or a b => exact h.elim
    | not a => exact h.elim
  | case4 => trivial
  | case5 property t hnone => exact hnone

theorem complement_complement {f : Filter} (h : f.NegatesTests) :
    f.complement.complement = f := by
  fun_induction complement f with
  | case1 a b iha ihb => rw [complement, iha h.1, ihb h.2]
  | case2 a b iha ihb => rw [complement, iha h.1, ihb h.2]
  | case3 a =>
    cases a with
    | test property t =>
      have hnone : t.complement? = none := h
      simp only [complement, hnone]
    | and a b => exact h.elim
    | or a b => exact h.elim
    | not a => exact h.elim
  | case4 property t opposite hsome =>
    simp only [complement, Test.complement?_of_complement? hsome]
  | case5 => rfl

theorem negatesTests_normalize (collapse : Bool) (f : Filter) :
    (f.normalize collapse).NegatesTests := by
  induction f with
  | and a b iha ihb =>
    simp only [normalize, joined]
    split
    · exact iha
    · exact ⟨iha, ihb⟩
  | or a b iha ihb =>
    simp only [normalize, joined]
    split
    · exact iha
    · exact ⟨iha, ihb⟩
  | not a ih => exact negatesTests_complement ih
  | test property t => trivial

/-! ### The answer of the normal form -/

/-- The answer of the normal form, seen from outside of the negations that the filter stands
under. -/
def normalizedAnswer (collapse : Bool) (r : Record) : (negated : Bool) → Filter → Bool
  | false, f => (f.normalize collapse).holds r
  | true, f => !(f.normalize collapse).complement.holds r

/-- Leaving out one of two equal operands of `and` changes no answer, above negations or below. -/
theorem normalizedAnswer_and (negated : Bool) (a b : Filter) :
    normalizedAnswer collapse r negated (.and a b) =
      (normalizedAnswer collapse r negated a && normalizedAnswer collapse r negated b) := by
  by_cases hsame : (collapse && (a.normalize collapse).same (b.normalize collapse)) = true
  · have heq := (Bool.and_eq_true_iff.mp hsame).2
    cases negated
    · simp [normalizedAnswer, normalize, joined, hsame, ← holds_eq_of_same heq r]
    · simp [normalizedAnswer, normalize, joined, hsame,
        ← holds_eq_of_same (complement_same heq) r]
  · cases negated <;> simp [normalizedAnswer, normalize, joined, hsame, complement, holds]

/-- Leaving out one of two equal operands of `or` changes no answer, above negations or below. -/
theorem normalizedAnswer_or (negated : Bool) (a b : Filter) :
    normalizedAnswer collapse r negated (.or a b) =
      (normalizedAnswer collapse r negated a || normalizedAnswer collapse r negated b) := by
  by_cases hsame : (collapse && (a.normalize collapse).same (b.normalize collapse)) = true
  · have heq := (Bool.and_eq_true_iff.mp hsame).2
    cases negated
    · simp [normalizedAnswer, normalize, joined, hsame, ← holds_eq_of_same heq r]
    · simp [normalizedAnswer, normalize, joined, hsame,
        ← holds_eq_of_same (complement_same heq) r]
  · cases negated <;> simp [normalizedAnswer, normalize, joined, hsame, complement, holds]

theorem normalizedAnswer_not (negated : Bool) (a : Filter) :
    normalizedAnswer collapse r negated (.not a) = !normalizedAnswer collapse r (!negated) a := by
  cases negated
  · simp [normalizedAnswer, normalize]
  · simp [normalizedAnswer, normalize, complement_complement (negatesTests_normalize collapse a)]

/-- A negated test that is unanswered counts as passed. -/
theorem normalizedAnswer_test (negated : Bool) (property : String) (t : Test) :
    normalizedAnswer collapse r negated (.test property t) =
      (t.holds (r property) || (negated && t.isUnanswered (r property))) := by
  rw [← Test.holds_simplify t, ← Test.isUnanswered_simplify t]
  cases negated
  · simp [normalizedAnswer, normalize, holds]
  · simp only [normalizedAnswer, normalize, complement]
    cases hopposite : t.simplify.complement? with
    | none => simp [holds, Test.not_isUnanswered_of_complement?_eq_none hopposite]
    | some opposite => simp [holds, Test.holds_complement? hopposite]

/-- The answer does not depend on whether repeated operands are left out: at a connective it is put
together from the answers of both operands, whether one of them is left out or not. -/
theorem normalizedAnswer_collapse (negated : Bool) (f : Filter) :
    normalizedAnswer true r negated f = normalizedAnswer false r negated f := by
  induction f generalizing negated with
  | and a b iha ihb => rw [normalizedAnswer_and, normalizedAnswer_and, iha, ihb]
  | or a b iha ihb => rw [normalizedAnswer_or, normalizedAnswer_or, iha, ihb]
  | not a ih => rw [normalizedAnswer_not, normalizedAnswer_not, ih]
  | test property t => rw [normalizedAnswer_test, normalizedAnswer_test]

/-- The same records satisfy the normal form in which repeated operands are left out and the one in
which they are kept. -/
theorem holds_normalize_collapse (f : Filter) (r : Record) :
    (f.normalize true).holds r = (f.normalize false).holds r :=
  normalizedAnswer_collapse false f

/-! ### Least and greatest answers -/

/-- The normal form gives one of the possible answers. -/
theorem mayAnswer_normalizedAnswer (negated : Bool) (f : Filter) :
    f.MayAnswer r negated (normalizedAnswer collapse r negated f) := by
  induction f generalizing negated with
  | and a b iha ihb => exact ⟨_, _, iha negated, ihb negated, normalizedAnswer_and negated a b⟩
  | or a b iha ihb => exact ⟨_, _, iha negated, ihb negated, normalizedAnswer_or negated a b⟩
  | not a ih =>
    have hinner := ih (!negated)
    simpa only [MayAnswer, normalizedAnswer_not, Bool.not_not] using hinner
  | test property t =>
    rw [MayAnswer, normalizedAnswer_test]
    cases hunanswered : negated && t.isUnanswered (r property) with
    | false => simp
    | true => exact Or.inr (Bool.and_eq_true_iff.mp hunanswered)

/-- Under an even number of negations the filter itself gives the greatest of the possible answers:
it says yes if any of them does. Under an odd number it gives the least. -/
theorem holds_of_mayAnswer (negated : Bool) {f : Filter}
    (h : f.MayAnswer r negated (!negated)) : f.holds r = !negated := by
  induction f generalizing negated with
  | and a b iha ihb =>
    obtain ⟨x, y, hx, hy, hxy⟩ := h
    cases negated with
    | false =>
      obtain ⟨rfl, rfl⟩ := Bool.and_eq_true_iff.mp hxy.symm
      simp [holds, iha false hx, ihb false hy]
    | true =>
      rcases Bool.and_eq_false_iff.mp hxy.symm with rfl | rfl
      · simp [holds, iha true hx]
      · simp [holds, ihb true hy]
  | or a b iha ihb =>
    obtain ⟨x, y, hx, hy, hxy⟩ := h
    cases negated with
    | false =>
      rcases Bool.or_eq_true_iff.mp hxy.symm with rfl | rfl
      · simp [holds, iha false hx]
      · simp [holds, ihb false hy]
    | true =>
      obtain ⟨rfl, rfl⟩ := Bool.or_eq_false_iff.mp hxy.symm
      simp [holds, iha true hx, ihb true hy]
  | not a ih =>
    have hinner : a.holds r = !!negated := ih _ h
    rw [holds, hinner, Bool.not_not]
  | test property t =>
    rcases h with h | ⟨rfl, h⟩
    · exact h.symm
    · exact Test.holds_of_isUnanswered h

/-- Under an even number of negations the normal form gives the least of the possible answers: if it
says yes, all of them do. Under an odd number it gives the greatest. -/
theorem of_normalizedAnswer_of_mayAnswer {negated : Bool} {f : Filter} {answer : Bool}
    (h : f.MayAnswer r negated answer)
    (hnormalized : normalizedAnswer collapse r negated f = !negated) : answer = !negated := by
  induction f generalizing negated answer with
  | and a b iha ihb =>
    obtain ⟨x, y, hx, hy, rfl⟩ := h
    rw [normalizedAnswer_and] at hnormalized
    cases negated with
    | false =>
      obtain ⟨ha, hb⟩ := Bool.and_eq_true_iff.mp hnormalized
      rw [iha hx ha, ihb hy hb, Bool.and_self]
    | true =>
      rcases Bool.and_eq_false_iff.mp hnormalized with ha | hb
      · simp [iha hx ha]
      · simp [ihb hy hb]
  | or a b iha ihb =>
    obtain ⟨x, y, hx, hy, rfl⟩ := h
    rw [normalizedAnswer_or] at hnormalized
    cases negated with
    | false =>
      rcases Bool.or_eq_true_iff.mp hnormalized with ha | hb
      · simp [iha hx ha]
      · simp [ihb hy hb]
    | true =>
      obtain ⟨ha, hb⟩ := Bool.or_eq_false_iff.mp hnormalized
      rw [iha hx ha, ihb hy hb, Bool.or_self]
  | not a ih =>
    rw [normalizedAnswer_not, Bool.not_inj_iff] at hnormalized
    have hinner : (!answer) = !!negated := ih h (by rw [hnormalized, Bool.not_not])
    exact Bool.not_inj hinner
  | test property t =>
    rw [normalizedAnswer_test] at hnormalized
    rcases h with rfl | ⟨rfl, hunanswered⟩
    · cases negated with
      | false => simpa using hnormalized
      | true => exact (Bool.or_eq_false_iff.mp hnormalized).1
    · rw [hunanswered] at hnormalized
      simp at hnormalized

/-- A record keeps its answer exactly if it settles the filter: the possible answers lie between
that of the normal form and that of the filter itself, and both of these are possible. -/
theorem holds_normalize_eq_iff (collapse : Bool) (r : Record) (f : Filter) :
    (f.normalize collapse).holds r = f.holds r ↔ f.Settled r := by
  constructor
  · intro heq answer hanswer
    cases hholds : f.holds r with
    | false =>
      cases answer with
      | false => rfl
      | true => exact (holds_of_mayAnswer false hanswer).symm.trans hholds
    | true =>
      have hnormalized : normalizedAnswer collapse r false f = !false := heq.trans hholds
      exact of_normalizedAnswer_of_mayAnswer hanswer hnormalized
  · intro hsettled
    exact hsettled _ (mayAnswer_normalizedAnswer false f)

/-- A selection is kept exactly if two tests agree on every member of the list. -/
private theorem filter_eq_filter_iff {α : Type} {p q : α → Bool} (things : List α) :
    things.filter p = things.filter q ↔ ∀ thing ∈ things, p thing = q thing := by
  constructor
  · intro heq thing hmem
    have hiff : thing ∈ things.filter p ↔ thing ∈ things.filter q := by rw [heq]
    rw [List.mem_filter, List.mem_filter, and_iff_right hmem, and_iff_right hmem] at hiff
    exact Bool.eq_iff_iff.mpr hiff
  · exact List.filter_congr

/-- Pushing negations down, with or without leaving out repeated operands, keeps the answer to a
record exactly if the record settles the filter, and keeps a selection exactly if each of its
records does. -/
theorem normalize_keeps_answers_iff_settled (f : Filter) (collapse : Bool) :
    (∀ r : Record, (f.normalize collapse).holds r = f.holds r ↔ f.Settled r) ∧
      ∀ documents : List Json,
        (f.normalize collapse).select Record.ofJson documents =
            f.select Record.ofJson documents ↔
          ∀ document ∈ documents, f.Settled (Record.ofJson document) := by
  constructor
  · intro r
    exact holds_normalize_eq_iff collapse r f
  · intro documents
    rw [select, select, filter_eq_filter_iff]
    exact forall₂_congr fun document _ ↦ holds_normalize_eq_iff collapse _ f

/-- A record without the property satisfies a negated comparison, but not the normal form. -/
theorem normalize_loses_record_without_property :
    (not (.test "age" (.ordered .greater (.int 18)))).WellFormed ∧
      (not (.test "age" (.ordered .greater (.int 18)))).holds (Record.ofJson (.object [])) = true ∧
      ∀ collapse, ((not (.test "age" (.ordered .greater (.int 18)))).normalize collapse).holds
        (Record.ofJson (.object [])) = false :=
  ⟨⟨by decide, rfl⟩, by decide, by decide⟩

end Filter

end PropertyFilter
