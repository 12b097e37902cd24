import PropertyFilter.DateTime
import PropertyFilter.Uuid

/-!
# The texts of points in time

The text of a point in time is made of digits and six other characters (`DateTime.mem_text`). A plus
sign is among them exactly if the local clock is ahead of universal time or the local year does not
fit in four digits (`DateTime.plus_mem_text_iff`). No such text is shaped like an identifier.
-/

set_option autoImplicit false

namespace PropertyFilter

theorem Numeral.isDigit_of_mem_padded {width n : Nat} {c : Char} (h : c ∈ padded width n) :
    c.isDigit = true := by
  rw [padded, List.mem_append] at h
  rcases h with h | h
  · rw [List.eq_of_mem_replicate h]
    rfl
  · exact isDigit_of_mem_digits n c h

namespace DateTime

/-- The year on the local clock. -/
def localYear (t : DateTime) : Int := (Date.ofDayNumber ((t.seconds + t.offset) / 86400)).year

/-- Whether the local clock is ahead of universal time, or its year has more than four digits. -/
def ShowsPlus (t : DateTime) : Prop := 0 < t.offset ∨ 9999 < t.localYear

instance (t : DateTime) : Decidable t.ShowsPlus := inferInstanceAs (Decidable (_ ∨ _))

theorem not_mem_padded {width n : Nat} {c : Char} (h : c.isDigit = false) :
    c ∉ Numeral.padded width n := by
  intro hmem
  rw [Numeral.isDigit_of_mem_padded hmem] at h
  cases h

theorem plus_not_mem_padded {width n : Nat} : '+' ∉ Numeral.padded width n :=
  not_mem_padded (by decide)

theorem mem_yearText {year : Int} {c : Char} (h : c ∈ yearText year) :
    c.isDigit = true ∨ c = '-' ∨ c = '+' := by
  unfold yearText at h
  split at h
  · exact .inl (Numeral.isDigit_of_mem_padded h)
  · rw [List.mem_cons] at h
    rcases h with rfl | h
    · split <;> simp
    · exact .inl (Numeral.isDigit_of_mem_padded h)

theorem plus_mem_yearText_iff (year : Int) : '+' ∈ yearText year ↔ 9999 < year := by
  unfold yearText
  split
  · next h => simp only [plus_not_mem_padded, false_iff]; omega
  · next h =>
    simp only [List.mem_cons, plus_not_mem_padded, or_false]
    split
    · next hnegative => simp only [Char.reduceEq, false_iff]; omega
    · next hpositive => simp only [true_iff]; omega

theorem mem_fractionText {nanos : Nat} {c : Char} (h : c ∈ fractionText nanos) :
    c.isDigit = true ∨ c = '.' := by
  unfold fractionText at h
  repeat' split at h
  · cases h
  all_goals
    rw [List.mem_cons] at h
    exact h.symm.imp_left Numeral.isDigit_of_mem_padded

theorem mem_offsetText {offset : Int} {c : Char} (h : c ∈ offsetText offset) :
    c.isDigit = true ∨ c = '-' ∨ c = '+' ∨ c = ':' ∨ c = 'Z' := by
  unfold offsetText at h
  split at h
  · simp only [List.mem_singleton] at h
    simp [h]
  · simp only [List.cons_append, List.mem_cons, List.mem_append] at h
    rcases h with rfl | h | rfl | h
    · split <;> simp
    · exact .inl (Numeral.isDigit_of_mem_padded h)
    · simp
    · exact .inl (Numeral.isDigit_of_mem_padded h)

theorem plus_mem_offsetText_iff (offset : Int) : '+' ∈ offsetText offset ↔ 0 < offset := by
  unfold offsetText
  split
  · next h => simp [h]
  · next h =>
    simp only [List.cons_append, List.mem_cons, List.mem_append, plus_not_mem_padded,
      Char.reduceEq, or_false]
    split
    · next hnegative => simp only [Char.reduceEq, false_iff]; omega
    · next hpositive => simp only [true_iff]; omega

/-- The characters that the text of a point in time is made of. -/
theorem mem_text {t : DateTime} {c : Char} (h : c ∈ t.text) :
    c.isDigit = true ∨ c = '-' ∨ c = '+' ∨ c = '.' ∨ c = ':' ∨ c = 'T' ∨ c = 'Z' := by
  simp only [text, List.cons_append, List.append_assoc, List.mem_cons, List.mem_append] at h
  rcases h with h | rfl | h | rfl | h | rfl | h | rfl | h | rfl | h | h | h
  · rcases mem_yearText h with h | rfl | rfl <;> simp_all
  · simp
  · exact .inl (Numeral.isDigit_of_mem_padded h)
  · simp
  · exact .inl (Numeral.isDigit_of_mem_padded h)
  · simp
  · exact .inl (Numeral.isDigit_of_mem_padded h)
  · simp
  · exact .inl (Numeral.isDigit_of_mem_padded h)
  · simp
  · exact .inl (Numeral.isDigit_of_mem_padded h)
  · rcases mem_fractionText h with h | rfl <;> simp_all
  · rcases mem_offsetText h with h | rfl | rfl | rfl | rfl <;> simp_all

/-- The text shows a plus sign for a clock ahead of universal time, and for a year beyond four
digits. -/
theorem plus_mem_text_iff (t : DateTime) : '+' ∈ t.text ↔ t.ShowsPlus := by
  have hfraction (nanos : Nat) : '+' ∉ fractionText nanos := by
    intro h
    rcases mem_fractionText h with h | h <;> simp at h
  simp only [text, List.cons_append, List.append_assoc, List.mem_cons, List.mem_append,
    plus_not_mem_padded, hfraction, plus_mem_yearText_iff, plus_mem_offsetText_iff, Char.reduceEq,
    false_or, ShowsPlus, localYear]
  exact Or.comm

/-- The letter between date and time is no part of an identifier. -/
theorem shaped_text (t : DateTime) : Uuid.shaped t.text = false := by
  have hletter : 'T' ∈ t.text := by simp [text]
  rw [Uuid.shaped, Bool.and_eq_false_iff, List.all_eq_false]
  exact .inr ⟨'T', hletter, by decide⟩

end DateTime

end PropertyFilter
