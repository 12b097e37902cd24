import PropertyFilter.Lexeme.Scan
import PropertyFilter.Text.Blank
import PropertyFilter.Text.Position

/-!
Tokens: lexemes with the places where they begin and end. The tokens of a text are its lexemes in
order, with any blanks between them.
-/

set_option autoImplicit false

namespace PropertyFilter

structure Token where
  lexeme : Lexeme
  first : Position
  last : Position
  deriving DecidableEq

/-- A place in a text, with the text from there on. -/
structure Cursor where
  place : Position
  rest : List Char

namespace Cursor

def ofText (text : List Char) : Cursor := ⟨.start, text⟩

/-- The cursor a number of characters further on. -/
def advance (c : Cursor) (count : Nat) : Cursor :=
  ⟨c.place.after (c.rest.take count), c.rest.drop count⟩

/-- The cursor past any blanks. -/
def skipBlanks (c : Cursor) : Cursor :=
  ⟨c.place.after (c.rest.takeWhile Text.isBlank), c.rest.dropWhile Text.isBlank⟩

/-- The next token and the cursor past it; a fault comes with the place of the character at fault,
and with the cursor past what was used up. At the end of the text there is nothing. -/
def next? (c : Cursor) : Option (Except (Lexeme.Fault × Position) Token × Cursor) :=
  let c := c.skipBlanks
  match c.rest with
  | [] => none
  | d :: rest =>
    match Lexeme.scan d rest with
    | .ok (lexeme, taken) =>
      let past := c.advance taken
      some (.ok ⟨lexeme, c.place, past.place⟩, past)
    | .error failure =>
      some (.error (failure.fault, (c.advance failure.distance).place), c.advance failure.taken)

/-- The steps of reading a text token by token, at most `count`, going on after a fault with what
was not used up. -/
def steps : (count : Nat) → Cursor → List (Option (Except (Lexeme.Fault × Position) Token))
  | 0, _ => []
  | count + 1, c =>
    match c.next? with
    | none => [none]
    | some (step, past) => some step :: past.steps count

theorem length_skipBlanks (c : Cursor) : c.skipBlanks.rest.length ≤ c.rest.length := by
  simpa [skipBlanks] using (List.dropWhile_suffix Text.isBlank (l := c.rest)).length_le

/-- Past a token there is less text than before it. -/
theorem length_rest_of_next? {c past : Cursor} {token : Token}
    (h : c.next? = some (.ok token, past)) : past.rest.length < c.rest.length := by
  simp only [next?] at h
  split at h
  · simp at h
  · next d rest hrest =>
    split at h
    · next lexeme taken hscan =>
      simp only [Option.some.injEq, Prod.mk.injEq, Except.ok.injEq] at h
      have htaken := Lexeme.scan_taken hscan
      have hle := length_skipBlanks c
      rw [← h.2]
      simp only [advance, hrest, List.length_drop, List.length_cons] at hle ⊢
      omega
    · simp at h

/-- All tokens from the cursor on, up to the first fault. -/
def tokens (c : Cursor) : Except (Lexeme.Fault × Position) (List Token) :=
  match _h : c.next? with
  | none => .ok []
  | some (.error fault, _) => .error fault
  | some (.ok token, past) =>
    match past.tokens with
    | .ok tokens => .ok (token :: tokens)
    | .error fault => .error fault
termination_by c.rest.length
decreasing_by exact length_rest_of_next? ‹_›

end Cursor

end PropertyFilter
