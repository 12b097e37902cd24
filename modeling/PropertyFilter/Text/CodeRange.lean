/-!
Sets of characters given as ranges of code points, the form in which character properties are
published.
-/

set_option autoImplicit false

namespace PropertyFilter.Text

/-- Whether a character lies in one of the ranges, whose ends both count. -/
def inRanges (ranges : List (Nat × Nat)) (c : Char) : Bool :=
  ranges.any fun range ↦ range.1 ≤ c.toNat && c.toNat ≤ range.2

theorem inRanges_append (first second : List (Nat × Nat)) (c : Char) :
    inRanges (first ++ second) c = (inRanges first c || inRanges second c) := by
  simp [inRanges]

/-- Characters are different if a class has one of them only. -/
theorem ne_of_class {has : Char → Bool} {c d : Char} (hc : has c = true) (hd : has d = false) :
    c ≠ d := by
  rintro rfl
  rw [hc] at hd
  cases hd

end PropertyFilter.Text
