import PropertyFilter.Expression.Fault
import PropertyFilter.Proofs.Filter.NormalForm

/-!
# The size of the normal form

Pushing a negation down puts one above tests deep in the tree, but it takes one away higher up: a
complement is at most one higher than the filter (`height_complement_le`), and it stands where a
negation of the filter stood. So the normal form is no higher than the filter, and what may be read
may be normalized without leaving the bound on heights. All tests keep their places, though some
become their complements; only operands that repeat the one before them are left out, if that is
asked for (`height_normalize_le_and_properties`).
-/

set_option autoImplicit false

namespace PropertyFilter.Filter

/-- The properties that the tests of the tree ask about, from left to right. -/
def properties (f : Filter) : List String := f.tests.map Prod.fst

@[simp] theorem properties_and (a b : Filter) :
    (and a b).properties = a.properties ++ b.properties := List.map_append

@[simp] theorem properties_or (a b : Filter) :
    (or a b).properties = a.properties ++ b.properties := List.map_append

@[simp] theorem properties_not (a : Filter) : (not a).properties = a.properties := rfl

theorem length_properties (f : Filter) : f.properties.length = f.tests.length := List.length_map _

/-! ### Complements -/

/-- A complement is higher by a negation at most. -/
theorem height_complement_le (f : Filter) : f.complement.height ≤ f.height + 1 := by
  induction f with
  | and a b iha ihb =>
    simp only [complement, height]
    omega
  | or a b iha ihb =>
    simp only [complement, height]
    omega
  | not a ih =>
    simp only [complement, height]
    omega
  | test property t =>
    rw [complement]
    split
    · exact Nat.le_succ 1
    · exact Nat.le_refl 2

theorem properties_complement (f : Filter) : f.complement.properties = f.properties := by
  induction f with
  | and a b iha ihb => rw [complement, properties_or, properties_and, iha, ihb]
  | or a b iha ihb => rw [complement, properties_and, properties_or, iha, ihb]
  | not a ih => rfl
  | test property t =>
    rw [complement]
    split
    · rfl
    · rfl

/-! ### Normal forms -/

theorem height_joined_le (join : Filter → Filter → Filter)
    (hjoin : ∀ a b, (join a b).height = max a.height b.height + 1) (collapse : Bool)
    (a b : Filter) : (joined collapse join a b).height ≤ max a.height b.height + 1 := by
  rcases joined_cases collapse join a b with ⟨heq, -⟩ | ⟨heq, -⟩
  · rw [heq]
    omega
  · rw [heq, hjoin]

theorem height_normalize_le (collapse : Bool) (f : Filter) :
    (f.normalize collapse).height ≤ f.height := by
  induction f with
  | and a b iha ihb =>
    have hjoined := height_joined_le .and (fun _ _ ↦ rfl) collapse
      (a.normalize collapse) (b.normalize collapse)
    rw [normalize, height]
    omega
  | or a b iha ihb =>
    have hjoined := height_joined_le .or (fun _ _ ↦ rfl) collapse
      (a.normalize collapse) (b.normalize collapse)
    rw [normalize, height]
    omega
  | not a ih =>
    -- The negation that is taken away here pays for those that the complement adds below.
    have hcomplement := height_complement_le (a.normalize collapse)
    rw [normalize, height]
    omega
  | test property t => exact Nat.le_refl 1

theorem properties_normalize (f : Filter) : (f.normalize false).properties = f.properties := by
  have hjoined (join : Filter → Filter → Filter) (a b : Filter) :
      joined false join a b = join a b := joined_of_same_eq_false (by simp)
  induction f with
  | and a b iha ihb => rw [normalize, hjoined, properties_and, iha, ihb, properties_and]
  | or a b iha ihb => rw [normalize, hjoined, properties_or, iha, ihb, properties_or]
  | not a ih => rw [normalize, properties_complement, ih, properties_not]
  | test property t => rfl

theorem properties_joined_sublist {join : Filter → Filter → Filter}
    (hjoin : ∀ a b, (join a b).properties = a.properties ++ b.properties) (collapse : Bool)
    {a b a' b' : Filter} (ha : a'.properties.Sublist a.properties)
    (hb : b'.properties.Sublist b.properties) :
    (joined collapse join a' b').properties.Sublist (a.properties ++ b.properties) := by
  rcases joined_cases collapse join a' b' with ⟨heq, -⟩ | ⟨heq, -⟩
  · rw [heq]
    exact ha.trans (List.sublist_append_left _ _)
  · rw [heq, hjoin]
    exact ha.append hb

theorem properties_normalize_sublist (collapse : Bool) (f : Filter) :
    (f.normalize collapse).properties.Sublist f.properties := by
  induction f with
  | and a b iha ihb =>
    rw [normalize, properties_and]
    exact properties_joined_sublist properties_and collapse iha ihb
  | or a b iha ihb =>
    rw [normalize, properties_or]
    exact properties_joined_sublist properties_or collapse iha ihb
  | not a ih =>
    rw [normalize, properties_complement]
    exact ih
  | test property t => exact .refl _

/-- The normal form is no higher than the filter, so that it keeps to a bound on heights where the
filter does. If repeated operands are kept, it has as many tests of the same properties in the same
order, and otherwise it may only have fewer. -/
theorem height_normalize_le_and_properties (f : Filter) :
    (∀ collapse, (f.normalize collapse).height ≤ f.height) ∧
      (f.height ≤ Expression.maxHeight →
        ∀ collapse, (f.normalize collapse).height ≤ Expression.maxHeight) ∧
      (f.normalize false).properties = f.properties ∧
      (f.normalize false).tests.length = f.tests.length ∧
      (f.normalize true).properties.Sublist f.properties := by
  have hproperties := properties_normalize f
  refine ⟨fun collapse ↦ height_normalize_le collapse f,
    fun hheight collapse ↦ (height_normalize_le collapse f).trans hheight, hproperties, ?_,
    properties_normalize_sublist true f⟩
  rw [← length_properties, hproperties, length_properties]

/-- A negation is pushed to where it stays, and two others meet and are gone. -/
theorem height_normalize_le_and_properties_negations :
    ∃ f : Filter, f = .not (.and (.test "a" (.text .startsWith "x"))
        (.not (.or (.test "b" (.equals none)) (.test "a" .present)))) ∧
      f.height ≤ Expression.maxHeight ∧
      (f.normalize true).height ≤ Expression.maxHeight ∧
      (f.normalize false).properties = ["a", "b", "a"] ∧
      (f.normalize false).height = 3 ∧ f.height = 5 := by
  have hbound : (not (.and (.test "a" (.text .startsWith "x"))
      (.not (.or (.test "b" (.equals none)) (.test "a" .present))))).height ≤
        Expression.maxHeight := by decide
  obtain ⟨-, hheight, hproperties, -⟩ := height_normalize_le_and_properties _
  exact ⟨_, rfl, hbound, hheight hbound true, hproperties, by decide, by decide⟩

end PropertyFilter.Filter
