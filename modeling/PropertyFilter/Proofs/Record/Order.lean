import PropertyFilter.Proofs.Filter.Letters
import PropertyFilter.Proofs.Record

/-!
# The order of the entries of a table

A table of distinct names may hold its entries in any order, such as that of the names
(`Entries.perm_ofList`). The order matters to a lookup only if no entry has exactly the name asked
for and several names are alike to it: the first of these entries is found, and each of them may be
the first. So a table is `Unambiguous` for a test if it has the name of the property, or if all
entries that may be found pass the test or none of them does. A filter all of whose tests are of
this kind gets the same answer in every order, and a single test only then
(`Filter.holds_ofTable_eq`). Where one of two names that are alike has a value that passes the test
and the other one has not, the answer depends on which comes first
(`Filter.holds_ofTable_depends`).
-/

set_option autoImplicit false

namespace PropertyFilter

namespace Entries

variable {α : Type}

/-! ### Tables in the order of names -/

theorem perm_put {name : String} {thing : α} {entries : Entries α}
    (h : ∀ e ∈ entries, e.1 ≠ name) :
    (put name thing entries).Perm ((name, thing) :: entries) := by
  induction entries with
  | nil => exact .refl _
  | cons entry entries ih =>
    rw [List.forall_mem_cons] at h
    rw [put]
    split
    · exact .refl _
    · rw [if_neg (Ne.symm h.1)]
      exact ((ih h.2).cons entry).trans (.swap _ _ _)

theorem perm_foldl_put (entries : Entries α) {table : Entries α}
    (h : ((entries ++ table).map Prod.fst).Nodup) :
    (table.foldl (fun entries e ↦ put e.1 e.2 entries) entries).Perm (entries ++ table) := by
  induction table generalizing entries with
  | nil => simp
  | cons e table ih =>
    have hnew : ∀ e' ∈ entries, e'.1 ≠ e.1 := fun e' he' ↦ by
      rw [List.map_append, List.nodup_append] at h
      exact h.2.2 _ (List.mem_map_of_mem he') _ (List.mem_map_of_mem List.mem_cons_self)
    have hput : (put e.1 e.2 entries ++ table).Perm (entries ++ e :: table) :=
      ((perm_put hnew).append_right table).trans List.perm_middle.symm
    exact (ih _ ((hput.map Prod.fst).nodup_iff.mpr h)).trans hput

/-- The table in the order of its names has the same entries. -/
theorem perm_ofList {table : Entries α} (h : (table.map Prod.fst).Nodup) :
    (ofList table).Perm table := perm_foldl_put [] h

/-! ### What a lookup may find -/

theorem lookup?_cons_of_alike {e : String × α} {entries : Entries α} {name : String}
    (hexact : ∀ e' ∈ e :: entries, e'.1 ≠ name) (halike : alike e.1 name = true) :
    lookup? name (e :: entries) = some e.2 := by
  have hnone : find? name (e :: entries) = none := by
    simpa [find?] using hexact
  rw [lookup?, hnone, Option.none_or, List.find?_cons, halike]
  rfl

/-- The table has exactly this name, or its entries with names that are alike pass the test or fail
it together. -/
def Unambiguous (table : Entries Value) (property : String) (t : Test) : Prop :=
  (∃ e ∈ table, e.1 = property) ∨
    ∀ e ∈ table, ∀ e' ∈ table, alike e.1 property = true → alike e'.1 property = true →
      t.holds (some e.2) = t.holds (some e'.2)

instance (table : Entries Value) (property : String) (t : Test) :
    Decidable (table.Unambiguous property t) := inferInstanceAs (Decidable (_ ∨ _))

/-- Whatever entries the table and another order of it find, they pass the test or fail it
together. -/
theorem Unambiguous.holds_lookup? {table order : Entries Value} {property : String} {t : Test}
    (h : table.Unambiguous property t) (hnames : (table.map Prod.fst).Nodup)
    (horder : order.Perm table) :
    t.holds (lookup? property order) = t.holds (lookup? property table) := by
  rcases h with ⟨e, he, rfl⟩ | htogether
  · have hnames' : (order.map Prod.fst).Nodup := (horder.map Prod.fst).nodup_iff.mpr hnames
    rw [lookup?_of_mem hnames he, lookup?_of_mem hnames' (horder.mem_iff.mpr he)]
  · have hnone : lookup? property order = none ↔ lookup? property table = none := by
      simp only [lookup?_eq_none_iff, horder.mem_iff]
    cases hfound : lookup? property table with
    | none => rw [hnone.mpr hfound]
    | some v =>
      obtain ⟨w, hfound'⟩ : ∃ w, lookup? property order = some w := by
        rw [← Option.ne_none_iff_exists', Ne, hnone, hfound]
        exact Option.some_ne_none v
      obtain ⟨e, he, halike, rfl⟩ := exists_mem_of_lookup? hfound
      obtain ⟨e', he', halike', rfl⟩ := exists_mem_of_lookup? hfound'
      rw [hfound', htogether e he e' (horder.mem_iff.mp he') halike halike']

/-- A test with the same answer in every order is one for which the table is unambiguous: each of
the entries may come first. -/
theorem unambiguous_of_forall_perm {table : Entries Value} {property : String} {t : Test}
    {answer : Bool} (h : ∀ order, order.Perm table → t.holds (lookup? property order) = answer) :
    table.Unambiguous property t := by
  refine or_iff_not_imp_left.mpr fun hexact ↦ ?_
  have hfirst : ∀ e ∈ table, alike e.1 property = true → t.holds (some e.2) = answer := by
    intro e he halike
    obtain ⟨before, after, rfl⟩ := List.append_of_mem he
    have horder : (e :: (before ++ after)).Perm (before ++ e :: after) := List.perm_middle.symm
    rw [← h _ horder, lookup?_cons_of_alike _ halike]
    exact fun e' he' hname ↦ hexact ⟨e', horder.mem_iff.mp he', hname⟩
  intro e he e' he' halike halike'
  rw [hfirst e he halike, hfirst e' he' halike']

end Entries

namespace Filter

/-- The order of a table of distinct names does not matter to a filter for whose tests the table is
unambiguous; and for a single test it does not matter only then. -/
theorem holds_ofTable_eq {table : Entries Value} (hnames : (table.map Prod.fst).Nodup) :
    (∀ f : Filter, (∀ p ∈ f.tests, table.Unambiguous p.1 p.2) → ∀ order, order.Perm table →
      f.holds (.ofTable order) = f.holds (.ofTable (Entries.ofList table))) ∧
    ∀ property t, (∀ order, order.Perm table →
      (test property t).holds (.ofTable order) =
        (test property t).holds (.ofTable (Entries.ofList table))) →
      table.Unambiguous property t := by
  refine ⟨fun f hf order horder ↦ holds_congr fun p hp ↦ ?_,
    fun property t h ↦ Entries.unambiguous_of_forall_perm h⟩
  have hsorted := (hf p hp).holds_lookup? hnames (Entries.perm_ofList hnames)
  exact ((hf p hp).holds_lookup? hnames horder).trans hsorted.symm

/-- A present property in any letters, and one that the table has in these letters. -/
theorem holds_ofTable_eq_exact :
    (Filter.and (.test "AGE" .present) (.not (.test "Age" (.equals (some (.int 1)))))).holds
        (.ofTable [("age", .int 1), ("Age", .int 2)]) =
      (Filter.and (.test "AGE" .present) (.not (.test "Age" (.equals (some (.int 1)))))).holds
        (.ofTable (Entries.ofList [("age", .int 1), ("Age", .int 2)])) :=
  (holds_ofTable_eq (by decide)).1 _ (by decide) _ (.refl _)

/-- If two names are alike and neither is the one asked for, the order decides. -/
theorem holds_ofTable_depends :
    ¬ ∀ (table : Entries Value) (f : Filter), (table.map Prod.fst).Nodup →
      (∀ order order', order.Perm table → order'.Perm table →
        f.holds (.ofTable order) = f.holds (.ofTable order')) ∧
      ∀ order, order.Perm table →
        f.holds (.ofTable order) = f.holds (.ofTable (Entries.ofList table)) := by
  intro h
  obtain ⟨-, hsorted⟩ := h [("age", .int 1), ("Age", .int 2)]
    (.test "AGE" (.equals (some (.int 1)))) (by decide)
  have hage := hsorted _ (.refl _)
  revert hage
  decide

end Filter

end PropertyFilter
