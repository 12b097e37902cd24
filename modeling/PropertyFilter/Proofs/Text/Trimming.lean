import Mathlib.Data.List.Basic
import PropertyFilter.Text.Blank

/-!
# Trimming

A text is what trimming leaves of it, with blanks around it (`exists_gaps_trim`). What begins and
ends with no blank is left of a text in which blanks stand around it (`trim_append`).
-/

set_option autoImplicit false

namespace PropertyFilter.Text

theorem trimLeft_append {gap cs : List Char} (hgap : allBlank gap = true)
    (hhead : ∀ c ∈ cs.head?, isBlank c = false) : trimLeft (gap ++ cs) = cs := by
  rw [trimLeft, List.dropWhile_append_of_pos (List.all_eq_true.mp hgap)]
  cases cs with
  | nil => rfl
  | cons c cs => exact List.dropWhile_cons_of_neg (by simp [hhead c rfl])

theorem allBlank_reverse {gap : List Char} (h : allBlank gap = true) :
    allBlank gap.reverse = true := by
  rwa [allBlank, List.all_reverse]

/-- What begins and ends with no blank is left of a text that has blanks around it. -/
theorem trim_append {gap own gap' : List Char} (hgap : allBlank gap = true)
    (hgap' : allBlank gap' = true) (hne : own ≠ [])
    (hhead : ∀ c ∈ own.head?, isBlank c = false) (hlast : ∀ c ∈ own.getLast?, isBlank c = false) :
    trim (gap ++ (own ++ gap')) = own := by
  have hleft : trimLeft (gap ++ (own ++ gap')) = own ++ gap' := by
    refine trimLeft_append hgap ?_
    rwa [List.head?_append_of_ne_nil _ hne]
  have hright : trimLeft (gap'.reverse ++ own.reverse) = own.reverse :=
    trimLeft_append (allBlank_reverse hgap') (by rwa [List.head?_reverse])
  rw [trim, hleft, List.reverse_append, hright, List.reverse_reverse]

/-- A text is what trimming leaves of it, with blanks around it. -/
theorem exists_gaps_trim (cs : List Char) :
    ∃ gap gap', cs = gap ++ (trim cs ++ gap') ∧ allBlank gap = true ∧ allBlank gap' = true := by
  refine ⟨cs.takeWhile isBlank, ((trimLeft cs).reverse.takeWhile isBlank).reverse, ?_,
    List.all_takeWhile, allBlank_reverse List.all_takeWhile⟩
  have hright : trim cs ++ ((trimLeft cs).reverse.takeWhile isBlank).reverse = trimLeft cs := by
    conv_rhs => rw [← List.reverse_reverse (trimLeft cs),
      ← List.takeWhile_append_dropWhile (p := isBlank) (l := (trimLeft cs).reverse)]
    rw [List.reverse_append]
    rfl
  rw [hright]
  exact List.takeWhile_append_dropWhile.symm

end PropertyFilter.Text
