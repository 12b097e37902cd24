import Mathlib.Data.List.Induction
import PropertyFilter.Proofs.Text.Slices

/-!
# Places and the text before them

What lies before a place is some lines that have ended and the beginning of the line on which the
place stands (`exists_lines`). So a place between characters, and no other, can be told from slices
of the text (`at?_eq_some_iff`), and its line and its column lead back to it: past so many line
ends, and then past so many characters (`locates_after`). A place further on has a greater line, or
a greater column on the same line (`ofOffset_precedes`).
-/

set_option autoImplicit false

namespace PropertyFilter

namespace Text

/-! ### Lines -/

/-- The text after so many line ends. -/
def skipLines : (count : Nat) → List Char → Option (List Char)
  | 0, cs => some cs
  | _ + 1, [] => none
  | count + 1, c :: cs => if c = '\n' then skipLines count cs else skipLines (count + 1) cs

/-- The text up to and with its last line end. -/
def endedLines (cs : List Char) : List Char := (cs.reverse.dropWhile fun c ↦ c != '\n').reverse

/-- Lines that have ended: nothing follows the last line end. -/
def Ends (lines : List Char) : Prop := lines = [] ∨ ∃ init, lines = init ++ ['\n']

theorem Ends.skipLines {lines : List Char} (h : Ends lines) (rest : List Char) :
    skipLines (lines.count '\n') (lines ++ rest) = some rest := by
  obtain rfl | ⟨init, rfl⟩ := h
  · simp [Text.skipLines]
  · rw [List.count_append, List.count_singleton_self, List.append_assoc, List.singleton_append]
    induction init with
    | nil => simp [Text.skipLines]
    | cons c init ih =>
      by_cases hc : c = '\n'
      · rw [hc, List.count_cons_self, List.cons_append, Text.skipLines, if_pos rfl, ih]
      · rw [List.count_cons_of_ne hc, List.cons_append, Text.skipLines, if_neg hc, ih]

theorem Ends.endedLines {lines own : List Char} (h : Ends lines) (hown : ∀ c ∈ own, c ≠ '\n') :
    endedLines (lines ++ own) = lines := by
  have hreverse : ∀ c ∈ own.reverse, (c != '\n') = true := by simpa using hown
  rw [Text.endedLines, List.reverse_append, List.dropWhile_append_of_pos hreverse]
  obtain rfl | ⟨init, rfl⟩ := h
  · rfl
  · simp

end Text

namespace Position

open Text

/-- What lies before a place: lines that have ended, and the beginning of the line on which the
place stands. -/
theorem exists_lines (before : List Char) :
    ∃ lines own, before = lines ++ own ∧ Ends lines ∧ (∀ c ∈ own, c ≠ '\n') ∧
      start.after before = ⟨byteCount before, lines.count '\n' + 1, own.length + 1⟩ := by
  induction before using List.reverseRecOn with
  | nil => exact ⟨[], [], rfl, .inl rfl, by simp, rfl⟩
  | append_singleton before c ih =>
    obtain ⟨lines, own, hbefore, hends, hown, hplace⟩ := ih
    have hlast : (start.after (before ++ [c])) =
        (⟨byteCount before, lines.count '\n' + 1, own.length + 1⟩ : Position).step c := by
      rw [after_append, hplace, after_cons, after_nil]
    rw [hlast]
    by_cases hc : c = '\n'
    · have hnone : own.count '\n' = 0 := List.count_eq_zero.mpr fun h ↦ hown _ h rfl
      refine ⟨before ++ [c], [], (List.append_nil _).symm, .inr ⟨before, by rw [hc]⟩, by simp, ?_⟩
      simp [step, hc, hbefore, hnone, Nat.add_assoc]
    · refine ⟨lines, own ++ [c], by rw [hbefore, List.append_assoc], hends, ?_, ?_⟩
      · simpa [or_imp, forall_and] using ⟨hown, hc⟩
      · simp [step, hc]

/-! ### Places told from slices -/

/-- The place that an offset names, told from the part of the text before it and from the last line
of that part. There is none if one of the parts does not end between characters. -/
def at? (text : List Char) (offset : Nat) : Option Position := do
  let offset := min offset (byteCount text)
  let before ← slice? text 0 offset
  let line ← slice? before (byteCount (endedLines before)) (byteCount before)
  return ⟨offset, before.count '\n' + 1, line.length + 1⟩

theorem at?_byteCount (before after : List Char) :
    at? (before ++ after) (byteCount before) = some (start.after before) := by
  obtain ⟨lines, own, rfl, hends, hown, hplace⟩ := exists_lines before
  have hoffset : min (byteCount (lines ++ own)) (byteCount (lines ++ own ++ after)) =
      byteCount (lines ++ own) := by
    rw [byteCount_append _ after]
    omega
  have hbefore : slice? (lines ++ own ++ after) 0 (byteCount (lines ++ own)) =
      some (lines ++ own) := by
    simpa using slice?_append [] (lines ++ own) after
  have hline : slice? (lines ++ own) (byteCount lines) (byteCount (lines ++ own)) = some own := by
    simpa using slice?_append lines own []
  have hnone : own.count '\n' = 0 := List.count_eq_zero.mpr fun h ↦ hown _ h rfl
  simp only [at?, hoffset, hbefore, hends.endedLines hown, hline, hplace, Option.bind_eq_bind,
    Option.bind_some, List.count_append, hnone, Nat.add_zero, Option.pure_def]

theorem ofOffset_byteCount (before after : List Char) :
    ofOffset (before ++ after) (byteCount before) = start.after before := by
  rw [ofOffset, ← offset_start_after]
  exact seek_of_offset_eq start before after

/-- A place is told from slices just for the offsets that lie between characters. -/
theorem at?_eq_some_iff {text : List Char} {offset : Nat} (h : offset ≤ byteCount text)
    (p : Position) :
    at? text offset = some p ↔ IsBoundary text offset ∧ p = ofOffset text offset := by
  constructor
  · intro hp
    obtain ⟨before, hbefore, -⟩ := Option.bind_eq_some_iff.mp hp
    obtain ⟨after, rfl, hoffset⟩ := exists_split_of_slice? hbefore
    rw [Nat.min_eq_left h] at hoffset
    subst hoffset
    rw [at?_byteCount] at hp
    exact ⟨⟨before, after, rfl, rfl⟩, by rw [ofOffset_byteCount, ← Option.some.inj hp]⟩
  · rintro ⟨⟨before, after, rfl, rfl⟩, rfl⟩
    rw [at?_byteCount, ofOffset_byteCount]

/-! ### Lines and columns -/

/-- The place lies between characters of the text, as slices of the text tell it. Past the line ends
before its line, and past the characters before its column, which end no line, stands what stands
at its offset. -/
structure Locates (text : List Char) (p : Position) : Prop where
  sliced : at? text p.offset = some p
  inside : p.offset ≤ byteCount text
  positive : 1 ≤ p.line ∧ 1 ≤ p.column
  led : ∃ before after line, text = before ++ after ∧ p.offset = byteCount before ∧
    skipLines (p.line - 1) text = some line ∧ p.column - 1 ≤ line.length ∧
    (∀ c ∈ line.take (p.column - 1), c ≠ '\n') ∧ line.drop (p.column - 1) = after

theorem locates_after (before after : List Char) :
    Locates (before ++ after) (start.after before) := by
  have hoffset := offset_start_after before
  refine ⟨hoffset ▸ at?_byteCount before after, ?_, ?_, ?_⟩
  · rw [hoffset, byteCount_append]
    exact Nat.le_add_right _ _
  · obtain ⟨lines, own, -, -, -, hplace⟩ := exists_lines before
    rw [hplace]
    exact ⟨Nat.le_add_left _ _, Nat.le_add_left _ _⟩
  · obtain ⟨lines, own, rfl, hends, hown, hplace⟩ := exists_lines before
    have hlines : Text.skipLines (lines.count '\n') (lines ++ own ++ after) =
        some (own ++ after) := by
      rw [List.append_assoc]
      exact hends.skipLines _
    refine ⟨_, after, own ++ after, rfl, hoffset, ?_⟩
    rw [hplace]
    simp only [Nat.add_sub_cancel, List.take_left, List.drop_left, List.length_append]
    exact ⟨hlines, Nat.le_add_right _ _, hown, trivial⟩

/-! ### Order of places -/

/-- On a line before that of the other place, or further left on the same line. -/
def Precedes (p q : Position) : Prop := p.line < q.line ∨ p.line = q.line ∧ p.column < q.column

theorem Precedes.trans {p q r : Position} (h : p.Precedes q) (h' : q.Precedes r) :
    p.Precedes r := by
  unfold Precedes at h h' ⊢
  omega

theorem precedes_step (p : Position) (c : Char) : p.Precedes (p.step c) := by
  unfold step
  split
  · exact .inl (Nat.lt_succ_self _)
  · exact .inr ⟨rfl, Nat.lt_succ_self _⟩

theorem precedes_after (p : Position) {cs : List Char} (h : cs ≠ []) : p.Precedes (p.after cs) := by
  induction cs generalizing p with
  | nil => exact absurd rfl h
  | cons c cs ih =>
    rw [after_cons]
    cases cs with
    | nil => exact p.precedes_step c
    | cons d cs => exact (p.precedes_step c).trans (ih _ (List.cons_ne_nil d cs))

/-- Of two boundaries of a text, the one further on has the place further on. -/
theorem ofOffset_precedes {text : List Char} {first last : Nat} (hfirst : IsBoundary text first)
    (hlast : IsBoundary text last) (hlt : first < last) :
    (ofOffset text first).Precedes (ofOffset text last) := by
  obtain ⟨before, own, after, rfl, hown, rfl, rfl⟩ := exists_between hfirst hlast hlt
  rw [ofOffset_byteCount, ← List.append_assoc, ofOffset_byteCount, after_append]
  exact precedes_after _ hown

end Position

end PropertyFilter
