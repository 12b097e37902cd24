import Mathlib.Algebra.Ring.Nat
import PropertyFilter.Text.Position

/-!
# Bytes of a text

The bytes of a text are those of its characters one after the other. `slice? text first last` is the
part of a text between two offsets, which is there only if both lie between characters: it is what
stands there if the text is put together of three parts (`slice?_append`), and otherwise nothing
(`exists_split_of_slice?`).
-/

set_option autoImplicit false

namespace PropertyFilter

namespace Text

/-- The number of bytes of a text. -/
def byteCount (cs : List Char) : Nat := (cs.map Char.utf8Size).sum

/-- The text after so many bytes, if they are the bytes of whole characters. -/
def dropBytes? : (count : Nat) → List Char → Option (List Char)
  | 0, cs => some cs
  | _ + 1, [] => none
  | count + 1, c :: cs =>
    if c.utf8Size ≤ count + 1 then dropBytes? (count + 1 - c.utf8Size) cs else none

/-- The first so many bytes of a text, if they are the bytes of whole characters. -/
def takeBytes? : (count : Nat) → List Char → Option (List Char)
  | 0, _ => some []
  | _ + 1, [] => none
  | count + 1, c :: cs =>
    if c.utf8Size ≤ count + 1 then (takeBytes? (count + 1 - c.utf8Size) cs).map (c :: ·) else none

/-- The text between two offsets, if both lie between characters and in this order. -/
def slice? (text : List Char) (first last : Nat) : Option (List Char) :=
  if first ≤ last then (dropBytes? first text).bind (takeBytes? (last - first)) else none

@[simp] theorem byteCount_nil : byteCount [] = 0 := rfl

@[simp] theorem byteCount_cons (c : Char) (cs : List Char) :
    byteCount (c :: cs) = c.utf8Size + byteCount cs := by
  simp [byteCount]

@[simp] theorem byteCount_append (first second : List Char) :
    byteCount (first ++ second) = byteCount first + byteCount second := by
  simp [byteCount]

theorem byteCount_pos {cs : List Char} (h : cs ≠ []) : 0 < byteCount cs := by
  cases cs with
  | nil => exact absurd rfl h
  | cons c cs =>
    rw [byteCount_cons]
    exact Nat.add_pos_left c.utf8Size_pos _

/-- A character of two texts stands in the first or in the second. -/
theorem split_append {first second before after : List Char} {c : Char}
    (h : first ++ second = before ++ c :: after) :
    (∃ more, first = before ++ c :: more) ∨
      ∃ past, before = first ++ past ∧ second = past ++ c :: after := by
  rcases List.append_eq_append_iff.mp h with ⟨past, hbefore, hsecond⟩ | ⟨more, hfirst, hmore⟩
  · exact .inr ⟨past, hbefore, hsecond⟩
  · cases more with
    | nil => exact .inr ⟨[], by simpa using hfirst.symm, by simpa using hmore.symm⟩
    | cons d more =>
      obtain ⟨rfl, -⟩ := List.cons.inj hmore
      exact .inl ⟨more, hfirst⟩

/-- A character of a size is counted off the bytes. -/
theorem exists_byteCount_cons (c : Char) (cs : List Char) :
    ∃ count, byteCount (c :: cs) = count + 1 ∧ c.utf8Size ≤ count + 1 ∧
      count + 1 - c.utf8Size = byteCount cs := by
  have hsize := c.utf8Size_pos
  refine ⟨c.utf8Size + byteCount cs - 1, ?_, ?_, ?_⟩
  · rw [byteCount_cons]
    omega
  · omega
  · omega

theorem dropBytes?_append (before after : List Char) :
    dropBytes? (byteCount before) (before ++ after) = some after := by
  induction before with
  | nil => simp [dropBytes?]
  | cons c cs ih =>
    obtain ⟨count, hcount, hle, hrest⟩ := exists_byteCount_cons c cs
    rw [hcount, List.cons_append, dropBytes?, if_pos hle, hrest, ih]

theorem takeBytes?_append (own after : List Char) :
    takeBytes? (byteCount own) (own ++ after) = some own := by
  induction own with
  | nil => simp [takeBytes?]
  | cons c cs ih =>
    obtain ⟨count, hcount, hle, hrest⟩ := exists_byteCount_cons c cs
    rw [hcount, List.cons_append, takeBytes?, if_pos hle, hrest, ih, Option.map_some]

theorem slice?_append (before own after : List Char) :
    slice? (before ++ (own ++ after)) (byteCount before) (byteCount before + byteCount own) =
      some own := by
  rw [slice?, if_pos (Nat.le_add_right _ _), dropBytes?_append, Option.bind_some,
    Nat.add_sub_cancel_left, takeBytes?_append]

/-! ### Boundaries -/

/-- The offset lies between characters, or at an end of the text. -/
def IsBoundary (text : List Char) (offset : Nat) : Prop :=
  ∃ before after, text = before ++ after ∧ offset = byteCount before

theorem exists_split_of_takeBytes? {count : Nat} {cs own : List Char}
    (h : takeBytes? count cs = some own) : ∃ rest, cs = own ++ rest ∧ count = byteCount own := by
  fun_induction takeBytes? count cs generalizing own with
  | case1 cs =>
    cases h
    exact ⟨cs, rfl, rfl⟩
  | case2 => cases h
  | case3 count c cs hle ih =>
    obtain ⟨others, hothers, rfl⟩ := Option.map_eq_some_iff.mp h
    obtain ⟨rest, rfl, hcount⟩ := ih hothers
    refine ⟨rest, rfl, ?_⟩
    rw [byteCount_cons]
    omega
  | case4 => cases h

/-- A beginning of a text ends between characters. -/
theorem exists_split_of_slice? {text own : List Char} {last : Nat}
    (h : slice? text 0 last = some own) : ∃ rest, text = own ++ rest ∧ last = byteCount own := by
  rw [slice?, if_pos (Nat.zero_le _), dropBytes?, Option.bind_some] at h
  exact exists_split_of_takeBytes? h

/-- Of two boundaries of a text the first one is that of a beginning of what lies before the
second one. -/
theorem exists_between {text : List Char} {first last : Nat} (hfirst : IsBoundary text first)
    (hlast : IsBoundary text last) (hlt : first < last) :
    ∃ before own after, text = before ++ (own ++ after) ∧ own ≠ [] ∧
      first = byteCount before ∧ last = byteCount (before ++ own) := by
  obtain ⟨before, rest, rfl, rfl⟩ := hfirst
  obtain ⟨past, after, htext, rfl⟩ := hlast
  rcases List.append_eq_append_iff.mp htext with ⟨own, rfl, rfl⟩ | ⟨own, rfl, rfl⟩
  · refine ⟨before, own, after, rfl, ?_, rfl, rfl⟩
    rintro rfl
    simp at hlt
  · rw [byteCount_append] at hlt
    omega

end Text

theorem Position.offset_after (p : Position) (cs : List Char) :
    (p.after cs).offset = p.offset + Text.byteCount cs := by
  induction cs generalizing p with
  | nil => rfl
  | cons c cs ih =>
    rw [Position.after_cons, ih, Position.offset_step, Text.byteCount_cons, Nat.add_assoc]

theorem Position.offset_start_after (cs : List Char) :
    (Position.start.after cs).offset = Text.byteCount cs := by
  rw [offset_after]
  exact Nat.zero_add _

end PropertyFilter
