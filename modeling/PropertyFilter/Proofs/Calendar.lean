import Mathlib.Algebra.GroupWithZero.Nat
import PropertyFilter.Calendar

/-!
# Days and dates

The year in which a day lies begins no later than the day and ends after it (`yearOfDay_spec`), and
the month and the day in it are found by counting the days of the months before
(`monthAndDay_spec`). So the date of a day stands in the calendar (`Date.isValid_ofDayNumber`) and
names that day (`Date.toDayNumber_ofDayNumber`).
-/

set_option autoImplicit false

namespace PropertyFilter

namespace Calendar

/-! ### Years -/

/-- The estimate of the year by its mean length is at most one off. -/
theorem daysBeforeYear_of_estimate {day estimate : Int} (h : estimate = day * 400 / 146097) :
    daysBeforeYear (estimate - 1) ≤ day ∧ day < daysBeforeYear (estimate + 2) := by
  unfold daysBeforeYear
  omega

theorem yearOfDay_spec (day : Int) :
    daysBeforeYear (yearOfDay day) ≤ day ∧ day < daysBeforeYear (yearOfDay day + 1) := by
  obtain ⟨hlow, hhigh⟩ := @daysBeforeYear_of_estimate day _ rfl
  simp only [yearOfDay]
  split
  · next h => exact ⟨hlow, by rwa [Int.sub_add_cancel]⟩
  · next h =>
    split
    · next h' => exact ⟨h', by rwa [Int.add_assoc]⟩
    · next h' => exact ⟨by omega, by omega⟩

/-- The length of a year. -/
theorem daysBeforeYear_add_one (year : Int) :
    daysBeforeYear (year + 1) = daysBeforeYear year + ((monthLengths (isLeap year)).sum : Nat) := by
  have hleap : isLeap year = true ↔ year % 4 = 0 ∧ (year % 100 ≠ 0 ∨ year % 400 = 0) := by
    simp [isLeap]
  unfold daysBeforeYear
  cases h : isLeap year with
  | true =>
    rw [h] at hleap
    have hsum : (monthLengths true).sum = 366 := rfl
    have hyear := hleap.mp rfl
    rw [hsum]
    omega
  | false =>
    rw [h] at hleap
    have hsum : (monthLengths false).sum = 365 := rfl
    have hyear := mt hleap.mpr (by simp)
    rw [hsum]
    omega

/-! ### Months -/

/-- The month that a day falls into is found by the days of those before it. -/
theorem monthAndDay_spec (month : Nat) {days : Nat} {lengths : List Nat}
    (h : days < lengths.sum) :
    ∃ passed day, monthAndDay month days lengths = (month + passed, day + 1) ∧
      passed < lengths.length ∧ day < lengths.getD passed 0 ∧
      (lengths.take passed).sum + day = days := by
  -- each month that is passed takes its days off those that are left
  induction lengths generalizing month days with
  | nil => simp at h
  | cons length lengths ih =>
    rw [List.sum_cons] at h
    rw [monthAndDay]
    by_cases hdays : days < length
    · exact ⟨0, days, by simp [hdays], by simp, by simpa using hdays, by simp⟩
    · have hrest : days - length < lengths.sum := by omega
      obtain ⟨passed, day, heq, hpassed, hday, hsum⟩ := ih (month + 1) hrest
      refine ⟨passed + 1, day, ?_, by simpa using hpassed, by simpa using hday, ?_⟩
      · rw [if_neg hdays, heq]
        congr 1
        omega
      · rw [List.take_succ_cons, List.sum_cons]
        omega

theorem daysBeforeMonth_add_one (leap : Bool) (passed : Nat) :
    daysBeforeMonth leap (1 + passed) = ((monthLengths leap).take passed).sum := by
  rw [daysBeforeMonth, Nat.add_sub_cancel_left, List.sum_eq_foldl]

end Calendar

/-! ### Dates -/

namespace Date

open Calendar

/-- The date of a day: a month, and a day in it, of the year in which the day lies. -/
theorem ofDayNumber_spec (number : Int) : ∃ passed day,
    ofDayNumber number = ⟨yearOfDay (number + epochDay), 1 + passed, day + 1⟩ ∧ passed < 12 ∧
      day < (monthLengths (isLeap (yearOfDay (number + epochDay)))).getD passed 0 ∧
      daysBeforeYear (yearOfDay (number + epochDay)) +
        (daysBeforeMonth (isLeap (yearOfDay (number + epochDay))) (1 + passed) + day : Nat) =
          number + epochDay := by
  generalize hcount : number + epochDay = count
  obtain ⟨hlow, hhigh⟩ := yearOfDay_spec count
  rw [daysBeforeYear_add_one] at hhigh
  have hdays : (count - daysBeforeYear (yearOfDay count)).toNat <
      (monthLengths (isLeap (yearOfDay count))).sum := by
    omega
  obtain ⟨passed, day, heq, hpassed, hday, hsum⟩ := monthAndDay_spec 1 hdays
  refine ⟨passed, day, ?_, hpassed, hday, ?_⟩
  · simp only [ofDayNumber, hcount, heq]
  · rw [daysBeforeMonth_add_one, hsum]
    omega

/-- The date of a day stands in the calendar. -/
theorem isValid_ofDayNumber (number : Int) : (ofDayNumber number).isValid = true := by
  obtain ⟨passed, day, heq, hpassed, hday, -⟩ := ofDayNumber_spec number
  rw [heq, isValid]
  simp only [Bool.and_eq_true, decide_eq_true_eq, Nat.add_sub_cancel_left]
  omega

theorem ofDayNumber_bounds (number : Int) :
    (ofDayNumber number).month ≤ 12 ∧ (ofDayNumber number).day ≤ 31 := by
  obtain ⟨passed, day, heq, hpassed, hday, -⟩ := ofDayNumber_spec number
  have hlengths : ∀ leap : Bool, ∀ month < 12, (monthLengths leap).getD month 0 ≤ 31 := by decide
  have hlength := hlengths (isLeap (yearOfDay (number + epochDay))) passed hpassed
  rw [heq]
  exact ⟨by simp only; omega, by simp only; omega⟩

/-- The date of a day names that day. -/
theorem toDayNumber_ofDayNumber (number : Int) : (ofDayNumber number).toDayNumber = number := by
  obtain ⟨passed, day, heq, -, -, hcount⟩ := ofDayNumber_spec number
  rw [heq, toDayNumber]
  push_cast at hcount ⊢
  omega

end Date

end PropertyFilter
