import PropertyFilter.Proofs.Lexeme.Standing

/-!
# Faults of lexemes

`Failure.Reachable failure size` says what is true of every failure to scan a text of `size`
characters: the character at fault is one of the text, no escape of a code fails for want of a
character with that code, and a number that cannot be read is written with a fraction or an
exponent, so it is no integer whose digits fail. The scanners are taken one after the other, each
for a text that goes on as it likes, and `reachable_of_scan` puts them together.
-/

set_option autoImplicit false

namespace PropertyFilter.Lexeme

/-- What is true of every failure of a text of `size` characters. -/
structure Failure.Reachable (failure : Failure) (size : Nat) : Prop where
  inside : failure.distance < size
  code : failure.fault ≠ .invalidCode
  number : ∀ text, failure.fault = .unreadableNumber text →
    '.' ∈ text.toList ∨ 'e' ∈ text.toList ∨ 'E' ∈ text.toList

namespace Failure.Reachable

variable {failure : Failure} {size size' : Nat}

theorem mono (h : failure.Reachable size) (hle : size ≤ size') : failure.Reachable size' :=
  ⟨Nat.lt_of_lt_of_le h.inside hle, h.code, h.number⟩

end Failure.Reachable

/-! ### Strings -/

theorem failure_of_scanCode {distance taken count value : Nat} {cs : List Char} {failure : Failure}
    (h : scanCode distance taken count value cs = .error failure) :
    failure.fault = .incompleteCode ∧ failure.distance = distance := by
  induction count generalizing taken value cs with
  | zero => cases h
  | succ count ih =>
    cases cs with
    | nil =>
      cases h
      exact ⟨rfl, rfl⟩
    | cons c cs =>
      rw [scanCode] at h
      split at h
      · cases h
        exact ⟨rfl, rfl⟩
      · exact ih h

/-- A failure that names no code and no number is laid to a character of the text. -/
theorem reachable_of_fault {failure : Failure} {size : Nat} (hinside : failure.distance < size)
    (hcode : failure.fault ≠ .invalidCode)
    (hnumber : ∀ text, failure.fault ≠ .unreadableNumber text) : failure.Reachable size :=
  ⟨hinside, hcode, fun text htext ↦ absurd htext (hnumber text)⟩

theorem reachable_of_scanCode {distance taken count value size : Nat} {cs : List Char}
    {failure : Failure} (h : scanCode distance taken count value cs = .error failure)
    (hinside : distance < size) : failure.Reachable size := by
  obtain ⟨hfault, rfl⟩ := failure_of_scanCode h
  exact reachable_of_fault hinside (by simp [hfault]) (by simp [hfault])

/-- A code escape fails at its own backslash or at the one before its second half. -/
theorem reachable_of_scanCodeEscape {read : Nat} {cs : List Char} {failure : Failure}
    (h : scanCodeEscape read cs = .error failure) : failure.Reachable (read + cs.length + 1) := by
  have hinside : read < read + cs.length + 1 := by omega
  have hunpaired (taken : Nat) :
      (⟨.unpairedSurrogate, read, taken⟩ : Failure).Reachable (read + cs.length + 1) :=
    reachable_of_fault hinside (by simp) (by simp)
  unfold scanCodeEscape at h
  cases hunit : scanCode read (read + 2) 4 0 cs with
  | error other =>
    rw [hunit] at h
    cases h
    exact reachable_of_scanCode hunit (by omega)
  | ok unit =>
  rw [hunit] at h
  simp only [bind, Except.bind] at h
  split at h
  · next hhigh =>
    split at h
    · next after hafter =>
      have hlength : 6 + after.length ≤ cs.length := by
        have hdrop := congrArg List.length hafter
        simp only [List.length_drop, List.length_cons] at hdrop
        omega
      cases hsecond : scanCode (read + 6) (read + 8) 4 0 after with
      | error other =>
        rw [hsecond] at h
        cases h
        exact reachable_of_scanCode hsecond (by omega)
      | ok low =>
      rw [hsecond] at h
      dsimp only at h
      split at h
      · next hlow =>
        have hchar := charOfCode?_surrogates hhigh hlow
        unfold pairedCode at hchar
        rw [hchar] at h
        cases h
      · cases h
        exact hunpaired _
    all_goals
      cases h
      exact hunpaired _
  · next hhigh =>
    split at h
    · cases h
      exact hunpaired _
    · next hlow =>
      have hunitLt := lt_of_scanCode hunit
      rw [charOfCode?_unit hunitLt (Bool.eq_false_iff.mpr hhigh) (Bool.eq_false_iff.mpr hlow)] at h
      cases h

theorem reachable_of_scanEscape {read : Nat} {cs : List Char} {failure : Failure}
    (h : scanEscape read cs = .error failure) : failure.Reachable (read + cs.length + 1) := by
  have hinside : read < read + cs.length + 1 := by omega
  unfold scanEscape at h
  split at h
  case h_1 =>
    cases h
    exact reachable_of_fault hinside (by simp) (by simp)
  case h_10 rest =>
    refine (reachable_of_scanCodeEscape h).mono ?_
    rw [List.length_cons]
    omega
  case h_11 =>
    cases h
    exact reachable_of_fault hinside (by simp) (by simp)
  all_goals cases h

/-- The text between quotes fails at the opening quote, before it, or at one of its escapes. -/
theorem reachable_of_scanBody {read : Nat} (hread : 0 < read) {cs : List Char} {failure : Failure}
    (h : scanBody read cs = .error failure) : failure.Reachable (read + cs.length) := by
  fun_induction scanBody read cs with
  | case1 read =>
    cases h
    exact reachable_of_fault (Nat.add_pos_left hread _) (by simp) (by simp)
  | case2 => cases h
  | case3 read rest other hescape =>
    cases h
    exact reachable_of_scanEscape hescape
  | case4 read rest c length hescape other hrest ih =>
    cases h
    obtain ⟨code, after, rfl, rfl, -⟩ := exists_isEscape_of_scanEscape hescape
    refine (ih (by omega) hrest).mono ?_
    rw [Nat.add_sub_cancel, List.drop_left]
    simp only [List.length_append, List.length_cons]
    omega
  | case5 => cases h
  | case6 read c rest hquote hbackslash other hrest ih =>
    cases h
    refine (ih (by omega) hrest).mono ?_
    rw [List.length_cons]
    omega
  | case7 => cases h

theorem reachable_of_scanString {cs : List Char} {failure : Failure}
    (h : scanString cs = .error failure) : failure.Reachable (cs.length + 1) := by
  unfold scanString at h
  split at h
  · next other hbody =>
    cases h
    exact (reachable_of_scanBody Nat.one_pos hbody).mono (by omega)
  · split at h
    · split at h
      · cases h
      · cases h
        exact reachable_of_fault (Nat.succ_pos _) (by simp) (by simp)
    · cases h

/-! ### Numbers -/

namespace Number

/-- A number with digits is unreadable only if it has a fraction or an exponent, and its text shows
which. -/
theorem mem_text_of_toLexeme {n : Number} {fault : Fault} (hwhole : IsDigits n.whole)
    (hletter : ∀ e ∈ n.exponent, e.1 = 'e' ∨ e.1 = 'E') (h : n.toLexeme = .error fault) :
    fault = .unreadableNumber (String.ofList n.text) ∧
      ('.' ∈ n.text ∨ 'e' ∈ n.text ∨ 'E' ∈ n.text) := by
  obtain ⟨negative, whole, fraction, exponent⟩ := n
  unfold toLexeme at h
  split at h
  · next hparts =>
    dsimp only at h
    split at h
    · cases h
    cases h
    refine ⟨rfl, ?_⟩
    simp only [Bool.or_eq_true] at hparts
    rcases hparts with hfraction | hexponent
    · obtain ⟨ds, rfl⟩ := Option.isSome_iff_exists.mp hfraction
      simp [text]
    · obtain ⟨⟨letter, sign, ds⟩, rfl⟩ := Option.isSome_iff_exists.mp hexponent
      rcases hletter _ rfl with rfl | rfl <;> simp [text]
  · rw [toInt?_eq hwhole] at h
    cases h

end Number

theorem letter_of_scanExponent {cs : List Char} {exponent : Option (Char × Option Char × List Char)}
    {length : Nat} (h : scanExponent cs = .ok (exponent, length)) :
    ∀ e ∈ exponent, e.1 = 'e' ∨ e.1 = 'E' := by
  have hbegins := Number.beginsWithExponent_of_scanExponent (n := ⟨false, [], none, exponent⟩) h
  exact fun e he ↦ (hbegins.2.2 e he).1

/-- A text that the scanner of numbers is tried on has digits to read. -/
theorem reachable_of_scanNumber {cs : List Char} {failure : Failure} {size : Nat}
    (hdigit : beginsWithDigit (cs.drop (signLength cs)) = true) (hsize : 0 < size)
    (h : scanNumber cs = .error failure) : failure.Reachable size := by
  have hmalformed (taken : Nat) : (⟨.malformedNumber, 0, taken⟩ : Failure).Reachable size :=
    reachable_of_fault hsize (by simp) (by simp)
  simp only [scanNumber] at h
  split at h
  · cases h
    exact hmalformed _
  split at h
  · cases h
    exact hmalformed _
  next exponent length hexponent =>
  split at h
  · split at h
    · cases h
    · next fault hfault =>
      cases h
      obtain ⟨rfl, hmem⟩ := Number.mem_text_of_toLexeme (isDigits_takeDigits hdigit)
        (letter_of_scanExponent hexponent) hfault
      refine ⟨hsize, by simp, ?_⟩
      rintro text ⟨⟩
      rwa [String.toList_ofList]
  · cases h
    exact hmalformed _

/-! ### Lexemes -/

/-- A text that begins with no lexeme fails at one of its characters. -/
theorem reachable_of_scan {c : Char} {rest : List Char} {failure : Failure}
    (h : scan c rest = .error failure) : failure.Reachable (c :: rest).length := by
  unfold scan at h
  -- parentheses, brackets and the comma
  iterate 5
    split at h
    · cases h
  split at h
  · exact reachable_of_scanString h
  split at h
  · next hnumber => exact reachable_of_scanNumber (beginsWithDigit_drop hnumber) (Nat.succ_pos _) h
  split at h
  · cases h
  · cases h
    exact reachable_of_fault (Nat.succ_pos _) (by simp) (by simp)

end PropertyFilter.Lexeme
