import PropertyFilter.Proofs.Filter.Answers
import PropertyFilter.Proofs.Filter.Construction

/-!
# The normal form and its laws

`Filter.IsNormal` says what a normal form looks like, without saying how it is found: negations
stand only above tests that have no complement, no choice has a single value, and, where repeated
operands are left out, no `and` and no `or` has two equal ones. Normalizing gives such a filter, and
the filters that it leaves unchanged are just these (`normalize_isNormal_and_eq_self_iff`).

A complement is taken after repeated operands have been left out, and it must not bring any back.
It does not, since on normal forms it keeps equality in both directions (`same_complement`). For the
same reason the laws of double negation and of the negated connectives hold of normal forms as
equalities of trees (`normalize_not_not_and_not_connectives`), though the two sides of a law compare
different operands with each other.
-/

set_option autoImplicit false

namespace PropertyFilter

namespace Test

/-- The tests that stay under a negation: those of texts and of presence, and choices of several
values. -/
def StaysNegated : Test → Prop
  | .equals _ => False
  | .differs _ => False
  | .ordered _ _ => False
  | .text _ _ => True
  | .present => True
  | .oneOf values => 2 ≤ values.length

/-- The test is no choice of a single value. -/
def IsNormal : Test → Prop
  | .oneOf values => values.length ≠ 1
  | _ => True

theorem complement?_of_staysNegated {t : Test} (h : t.StaysNegated) : t.complement? = none := by
  cases t with
  | equals value => exact h.elim
  | differs value => exact h.elim
  | ordered relation bound => exact h.elim
  | text test pattern => rfl
  | present => rfl
  | oneOf values => rfl

theorem isNormal_of_staysNegated {t : Test} (h : t.StaysNegated) : t.IsNormal := by
  cases t with
  | oneOf values =>
    have hlength : 2 ≤ values.length := h
    exact Nat.ne_of_gt hlength
  | _ => trivial

/-- A test without a complement stays negated, for a choice has some value. -/
theorem staysNegated_of_complement? {t : Test} (hwell : t.WellFormed) (hnormal : t.IsNormal)
    (h : t.complement? = none) : t.StaysNegated := by
  cases t with
  | oneOf values =>
    have hpos : values.length ≠ 0 := mt List.eq_nil_of_length_eq_zero hwell.1
    have hone : values.length ≠ 1 := hnormal
    change 2 ≤ values.length
    omega
  | text test pattern => trivial
  | present => trivial
  | equals value => cases h
  | differs value => cases h
  | ordered relation bound => cases h

theorem isNormal_of_complement? {t opposite : Test} (h : t.complement? = some opposite) :
    opposite.IsNormal := by
  cases t <;> cases h <;> trivial

theorem isNormal_simplify (t : Test) : t.simplify.IsNormal := by
  unfold simplify
  split
  · trivial
  · next hmany =>
    cases t with
    | oneOf values =>
      intro hone
      obtain ⟨value, rfl⟩ := List.length_eq_one_iff.mp hone
      exact hmany value rfl
    | _ => trivial

theorem simplify_of_isNormal {t : Test} (h : t.IsNormal) : t.simplify = t := by
  fun_cases simplify t with
  | case1 value => exact absurd rfl h
  | case2 => rfl

end Test

namespace Filter

/-- Negations stand only above tests that stay negated, no choice has a single value, and if
repeated operands are left out then no connective has two equal ones. -/
def IsNormal (collapse : Bool) : Filter → Prop
  | .and a b => a.IsNormal collapse ∧ b.IsNormal collapse ∧ (collapse = true → a.same b = false)
  | .or a b => a.IsNormal collapse ∧ b.IsNormal collapse ∧ (collapse = true → a.same b = false)
  | .not (.test _ t) => t.StaysNegated
  | .not _ => False
  | .test _ t => t.IsNormal

variable {collapse : Bool} {f g : Filter}

theorem IsNormal.negatesTests (h : f.IsNormal collapse) : f.NegatesTests := by
  induction f with
  | and a b iha ihb => exact ⟨iha h.1, ihb h.2.1⟩
  | or a b iha ihb => exact ⟨iha h.1, ihb h.2.1⟩
  | not a =>
    cases a with
    | test property t => exact Test.complement?_of_staysNegated h
    | and a b => exact h.elim
    | or a b => exact h.elim
    | not a => exact h.elim
  | test property t => trivial

/-! ### Complements -/

/-- Complements are equal exactly if the filters are: the complement undoes itself, so equality
comes back the way it goes. -/
theorem same_complement (hf : f.NegatesTests) (hg : g.NegatesTests) :
    f.complement.same g.complement = f.same g := by
  rw [Bool.eq_iff_iff]
  constructor
  · intro hsame
    have hback := complement_same hsame
    rwa [complement_complement hf, complement_complement hg] at hback
  · exact complement_same

/-- The complement of a normal form is normal: it takes a negation away or puts one on a test, and
operands that differ have complements that differ. -/
theorem isNormal_complement (hwell : f.WellFormed) (h : f.IsNormal collapse) :
    f.complement.IsNormal collapse := by
  induction f with
  | and a b iha ihb =>
    refine ⟨iha hwell.1 h.1, ihb hwell.2 h.2.1, ?_⟩
    rw [same_complement h.1.negatesTests h.2.1.negatesTests]
    exact h.2.2
  | or a b iha ihb =>
    refine ⟨iha hwell.1 h.1, ihb hwell.2 h.2.1, ?_⟩
    rw [same_complement h.1.negatesTests h.2.1.negatesTests]
    exact h.2.2
  | not a =>
    cases a with
    | test property t => exact Test.isNormal_of_staysNegated h
    | and a b => exact h.elim
    | or a b => exact h.elim
    | not a => exact h.elim
  | test property t =>
    rw [complement]
    split
    · next opposite hopposite => exact Test.isNormal_of_complement? hopposite
    · next hnone => exact Test.staysNegated_of_complement? hwell.2 h hnone

/-! ### Joined operands -/

/-- Equal operands are joined only if they may be repeated. -/
theorem joined_cases (collapse : Bool) (join : Filter → Filter → Filter) (a b : Filter) :
    (joined collapse join a b = a ∧ collapse = true ∧ a.same b = true) ∨
      joined collapse join a b = join a b ∧ (collapse = true → a.same b = false) := by
  unfold joined
  cases collapse <;> cases a.same b <;> simp

theorem joined_of_same_eq_false {join : Filter → Filter → Filter} {a b : Filter}
    (h : collapse = true → a.same b = false) : joined collapse join a b = join a b := by
  rcases joined_cases collapse join a b with ⟨-, htrue, hsame⟩ | ⟨heq, -⟩
  · rw [h htrue] at hsame
    cases hsame
  · exact heq

/-- Joining complements the other way around gives the complement of what is joined. -/
theorem joined_complement {join opposite : Filter → Filter → Filter}
    (hjoin : ∀ a b, (join a b).complement = opposite a.complement b.complement)
    (hf : f.NegatesTests) (hg : g.NegatesTests) :
    (joined collapse join f g).complement =
      joined collapse opposite f.complement g.complement := by
  unfold joined
  rw [same_complement hf hg]
  split
  · rfl
  · exact hjoin f g

/-! ### Normal forms -/

theorem isNormal_normalize (collapse : Bool) (hwell : f.WellFormed) :
    (f.normalize collapse).IsNormal collapse := by
  induction f with
  | and a b iha ihb =>
    rw [normalize]
    rcases joined_cases collapse .and (a.normalize collapse) (b.normalize collapse) with
      ⟨heq, -⟩ | ⟨heq, hdiffer⟩
    · rw [heq]
      exact iha hwell.1
    · rw [heq]
      exact ⟨iha hwell.1, ihb hwell.2, hdiffer⟩
  | or a b iha ihb =>
    rw [normalize]
    rcases joined_cases collapse .or (a.normalize collapse) (b.normalize collapse) with
      ⟨heq, -⟩ | ⟨heq, hdiffer⟩
    · rw [heq]
      exact iha hwell.1
    · rw [heq]
      exact ⟨iha hwell.1, ihb hwell.2, hdiffer⟩
  | not a ih => exact isNormal_complement (wellFormed_normalize collapse hwell) (ih hwell)
  | test property t => exact Test.isNormal_simplify t

theorem normalize_of_isNormal (h : f.IsNormal collapse) : f.normalize collapse = f := by
  induction f with
  | and a b iha ihb =>
    rw [normalize, iha h.1, ihb h.2.1]
    exact joined_of_same_eq_false h.2.2
  | or a b iha ihb =>
    rw [normalize, iha h.1, ihb h.2.1]
    exact joined_of_same_eq_false h.2.2
  | not a =>
    cases a with
    | test property t =>
      have hstays : t.StaysNegated := h
      have hnone := Test.complement?_of_staysNegated hstays
      simp only [normalize, Test.simplify_of_isNormal (Test.isNormal_of_staysNegated hstays),
        complement, hnone]
    | and a b => exact h.elim
    | or a b => exact h.elim
    | not a => exact h.elim
  | test property t => rw [normalize, Test.simplify_of_isNormal h]

/-- Normalizing gives a normal form, it leaves unchanged just what is one, and so doing it again has
no effect. -/
theorem normalize_isNormal_and_eq_self_iff (collapse : Bool) (f : Filter) (hwell : f.WellFormed) :
    (f.normalize collapse).IsNormal collapse ∧
      (f.normalize collapse = f ↔ f.IsNormal collapse) ∧
      (f.normalize collapse).normalize collapse = f.normalize collapse := by
  have hnormal := isNormal_normalize collapse hwell
  refine ⟨hnormal, ⟨fun heq ↦ ?_, normalize_of_isNormal⟩, normalize_of_isNormal hnormal⟩
  rwa [heq] at hnormal

/-- Two choices, one of `0.0` and one of `-0.0`, become the same test once they are negated, so one
of them is left out; the negation of a test of presence stays. -/
theorem normalize_isNormal_and_eq_self_iff_zeros :
    ∃ f : Filter,
      f = .not (.or (.or (.test "x" (.oneOf [.float (.zero false)]))
        (.not (.not (.test "x" (.oneOf [.float (.zero true)]))))) (.test "y" .present)) ∧
      f.WellFormed ∧
      ((f.normalize true).IsNormal true ∧ (f.normalize true = f ↔ f.IsNormal true) ∧
        (f.normalize true).normalize true = f.normalize true) ∧
      f.normalize true = .and (.test "x" (.differs (some (.float (.zero false)))))
        (.not (.test "y" .present)) := by
  have hzero (negative : Bool) :
      (test "x" (.oneOf [.float (.zero negative)])).WellFormed :=
    ⟨by decide, by simp, by cases negative <;> decide, List.pairwise_singleton _ _⟩
  have hwell : (not (.or (.or (.test "x" (.oneOf [.float (.zero false)]))
      (.not (.not (.test "x" (.oneOf [.float (.zero true)]))))) (.test "y" .present))).WellFormed :=
    ⟨⟨hzero false, hzero true⟩, by decide, trivial⟩
  exact ⟨_, rfl, hwell, normalize_isNormal_and_eq_self_iff true _ hwell, by decide⟩

/-! ### Laws -/

/-- A double negation is normalized to the same tree as its operand, and a negated connective to the
same tree as the other connective of the negated operands, whether repeated operands are left out or
not. -/
theorem normalize_not_not_and_not_connectives (collapse : Bool) (a b : Filter) :
    (not (.not a)).normalize collapse = a.normalize collapse ∧
      (not (.and a b)).normalize collapse = (or (.not a) (.not b)).normalize collapse ∧
      (not (.or a b)).normalize collapse = (and (.not a) (.not b)).normalize collapse := by
  have ha := negatesTests_normalize collapse a
  have hb := negatesTests_normalize collapse b
  refine ⟨?_, ?_, ?_⟩
  · exact complement_complement ha
  · exact joined_complement (fun _ _ ↦ rfl) ha hb
  · exact joined_complement (fun _ _ ↦ rfl) ha hb

end Filter

end PropertyFilter
