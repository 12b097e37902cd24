/-!
Places in a text. The offset of a position counts the bytes of UTF-8 before it; its line and its
column count from one, the column in characters. A position moves over a text one character at a
time, so the place after two texts is the place after the second, seen from the place after the
first.
-/

set_option autoImplicit false

namespace PropertyFilter

structure Position where
  offset : Nat
  line : Nat
  column : Nat
  deriving DecidableEq

namespace Position

/-- The place before the first character. -/
def start : Position := ⟨0, 1, 1⟩

/-- The place just past a character that stands at this place. -/
def step (p : Position) (c : Char) : Position :=
  if c = '\n' then ⟨p.offset + c.utf8Size, p.line + 1, 1⟩
  else ⟨p.offset + c.utf8Size, p.line, p.column + 1⟩

/-- The place just past a text that begins at this place. -/
def after (p : Position) (cs : List Char) : Position := cs.foldl step p

@[simp] theorem after_nil (p : Position) : p.after [] = p := rfl

@[simp] theorem after_cons (p : Position) (c : Char) (cs : List Char) :
    p.after (c :: cs) = (p.step c).after cs := rfl

theorem after_append (p : Position) (first second : List Char) :
    p.after (first ++ second) = (p.after first).after second := by
  simp [after, List.foldl_append]

@[simp] theorem offset_step (p : Position) (c : Char) :
    (p.step c).offset = p.offset + c.utf8Size := by
  unfold step
  split <;> rfl

/-- The place of the character that holds the byte `offset` of a text that begins at `p`, or the
end of the text if the offset lies past it. -/
def seek (p : Position) (offset : Nat) : List Char → Position
  | [] => p
  | c :: cs => if p.offset + c.utf8Size ≤ offset then (p.step c).seek offset cs else p

/-- The place in a text that an offset names. -/
def ofOffset (text : List Char) (offset : Nat) : Position := start.seek offset text

theorem seek_of_offset_eq (p : Position) (read rest : List Char) :
    p.seek (p.after read).offset (read ++ rest) = p.after read := by
  induction read generalizing p with
  | nil =>
    cases rest with
    | nil => rfl
    | cons c cs =>
      have hc := c.utf8Size_pos
      simp only [after_nil, List.nil_append, seek]
      rw [if_neg (by omega)]
  | cons c cs ih =>
    have hle : (p.step c).offset ≤ ((p.step c).after cs).offset := by
      clear ih
      generalize p.step c = q
      induction cs generalizing q with
      | nil => exact Nat.le_refl _
      | cons d ds ih => exact Nat.le_trans (by simp) (ih (q.step d))
    simp only [List.cons_append, seek, after_cons]
    rw [if_pos (by simpa using hle), ih]

/-- How a message names a place. -/
def text (p : Position) : String :=
  "line " ++ toString p.line ++ ", column " ++ toString p.column

end Position

end PropertyFilter
