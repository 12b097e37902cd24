import PropertyFilter.Filter
import PropertyFilter.Lexeme

/-!
# Filters with recased names

The same tree of the same tests, whose properties have names that differ at most in the case of
letters.
-/

set_option autoImplicit false

namespace PropertyFilter

theorem alike_comm (s t : String) : alike s t = alike t s := BEq.comm

/-- What is alike to one of two texts that are alike is alike to the other one. -/
theorem alike_congr {s t : String} (h : alike s t = true) (u : String) : alike s u = alike t u := by
  rw [alike, beq_iff_eq] at h
  rw [alike, alike, h]

namespace Filter

/-- The trees are the same, but for the case of letters in the names of properties. -/
inductive Recased : Filter → Filter → Prop
  | and {a b c d : Filter} (hleft : Recased a c) (hright : Recased b d) :
      Recased (.and a b) (.and c d)
  | or {a b c d : Filter} (hleft : Recased a c) (hright : Recased b d) :
      Recased (.or a b) (.or c d)
  | not {a b : Filter} (h : Recased a b) : Recased (.not a) (.not b)
  | test {property other : String} (h : alike property other = true) (t : Test) :
      Recased (.test property t) (.test other t)

theorem Recased.height_eq {f g : Filter} (h : f.Recased g) : f.height = g.height := by
  induction h with
  | and hleft hright ihl ihr => rw [height, height, ihl, ihr]
  | or hleft hright ihl ihr => rw [height, height, ihl, ihr]
  | not h ih => rw [height, height, ih]
  | test h t => rfl

end Filter

end PropertyFilter
