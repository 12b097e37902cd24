import Mathlib
import PropertyFilter.Text.CodeRange
import PropertyFilter.Text.Position

/-!
# The case of letters in texts

Two texts are `Recased` if they differ at most in the case of letters of ASCII. A class of
characters that has all of these letters, or none of them, does not tell their case
(`apply_toLower`). Recased texts take as many bytes and have their line ends at the same characters,
so that what follows them stands at the same place (`Position.after_recased`).
-/

set_option autoImplicit false

namespace PropertyFilter

namespace Text

/-- The texts differ at most in the case of letters of ASCII. -/
def Recased (cs ds : List Char) : Prop := cs.map Char.toLower = ds.map Char.toLower

theorem Recased.length_eq {cs ds : List Char} (h : Recased cs ds) : cs.length = ds.length := by
  simpa using congrArg List.length h

theorem recased_cons_iff {c d : Char} {cs ds : List Char} :
    Recased (c :: cs) (d :: ds) ↔ c.toLower = d.toLower ∧ Recased cs ds := by
  simp [Recased]

theorem Recased.append {cs ds cs' ds' : List Char} (h : Recased cs ds) (h' : Recased cs' ds') :
    Recased (cs ++ cs') (ds ++ ds') := by
  rw [Recased, List.map_append, List.map_append, h, h']

theorem Recased.drop {cs ds : List Char} (h : Recased cs ds) (count : Nat) :
    Recased (cs.drop count) (ds.drop count) := by
  rw [Recased, List.map_drop, h, List.map_drop]

/-- A function that is constant on letters does not tell their case. -/
theorem apply_toLower {α : Type} {f : Char → α} {x : α} (h : ∀ c, c.isAlpha = true → f c = x)
    (c : Char) : f c.toLower = f c := by
  by_cases hupper : c.isUpper = true
  · have halpha : c.isAlpha = true := by simp [Char.isAlpha, hupper]
    rw [h c halpha, h c.toLower (by rwa [Char.isAlpha_toLower_eq_isAlpha])]
  · rw [Char.toLower_eq_of_not_isUpper hupper]

/-- A character that is no letter is not recased. -/
theorem eq_of_toLower_eq {c d : Char} (hd : d.isAlpha = false) (h : c.toLower = d.toLower) :
    c = d := by
  have hc : c.isAlpha = false := by
    rw [← Char.isAlpha_toLower_eq_isAlpha, h, Char.isAlpha_toLower_eq_isAlpha, hd]
  have hupper {e : Char} (he : e.isAlpha = false) : ¬ e.isUpper = true := by
    rw [Char.isAlpha, Bool.or_eq_false_iff] at he
    simp [he.1]
  rwa [Char.toLower_eq_of_not_isUpper (hupper hc), Char.toLower_eq_of_not_isUpper (hupper hd)] at h

/-- The codes of letters. -/
theorem toNat_of_isAlpha {c : Char} (h : c.isAlpha = true) :
    (65 ≤ c.toNat ∧ c.toNat ≤ 90) ∨ 97 ≤ c.toNat ∧ c.toNat ≤ 122 := by
  simp only [Char.isAlpha, Char.isUpper, Char.isLower, Bool.or_eq_true, Bool.and_eq_true,
    decide_eq_true_eq, ge_iff_le, UInt32.le_iff_toNat_le] at h
  exact h

end Text

namespace Position

theorem step_toLower (p : Position) (c : Char) : p.step c.toLower = p.step c := by
  refine Text.apply_toLower (x := ⟨p.offset + 1, p.line, p.column + 1⟩) (fun d hd ↦ ?_) c
  have hcode := Text.toNat_of_isAlpha hd
  have hline : d ≠ '\n' := Text.ne_of_class hd (by decide)
  have hsize : d.utf8Size = 1 := by
    rw [Char.utf8Size_eq_one_iff, UInt32.le_iff_toNat_le]
    change d.toNat ≤ 127
    omega
  rw [step, if_neg hline, hsize]

theorem after_map_toLower (p : Position) (cs : List Char) :
    p.after (cs.map Char.toLower) = p.after cs := by
  induction cs generalizing p with
  | nil => rfl
  | cons c cs ih => rw [List.map_cons, after_cons, after_cons, step_toLower, ih]

/-- Recased texts take the same place. -/
theorem after_recased {cs ds : List Char} (h : Text.Recased cs ds) (p : Position) :
    p.after cs = p.after ds := by
  rw [← after_map_toLower, h, after_map_toLower]

end Position

end PropertyFilter
