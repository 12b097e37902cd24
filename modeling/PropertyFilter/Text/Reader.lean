/-!
Readers of text. A reader reads something from the start of a text and answers with what it read
and with how many characters that took, or refuses the text. Readers are put together from readers
of parts.
-/

set_option autoImplicit false

namespace PropertyFilter.Text

def Reader (α : Type) : Type := List Char → Option (α × Nat)

namespace Reader

variable {α β : Type}

instance : Monad Reader where
  pure a := fun _ ↦ some (a, 0)
  bind first next := fun cs ↦
    match first cs with
    | none => none
    | some (a, used) => (next a (cs.drop used)).map fun (b, more) ↦ (b, used + more)

/-- The reader that refuses every text. -/
def refuse : Reader α := fun _ ↦ none

/-- The first of two readers, or the second one where the first refuses the text. -/
def orElse (first second : Reader α) : Reader α := fun cs ↦ (first cs).or (second cs)

/-- The first of the readers that does not refuse the text. -/
def firstOf (readers : List (Reader α)) : Reader α := readers.foldr orElse refuse

/-- What a reader reads, or nothing where it refuses the text. -/
def optional (r : Reader α) : Reader (Option α) := orElse (some <$> r) (pure none)

/-- The next character, if it passes a test. -/
def charWhere (p : Char → Bool) : Reader Char
  | [] => none
  | c :: _ => if p c then some (c, 1) else none

def char (c : Char) : Reader Char := charWhere (· == c)

/-- A text that has to come next. -/
def exactly (word : List Char) : Reader Unit := fun cs ↦
  if word.isPrefixOf cs then some ((), word.length) else none

/-- All characters up to the first that does not pass a test. -/
def takeWhile (p : Char → Bool) : Reader (List Char) := fun cs ↦
  let taken := cs.takeWhile p
  some (taken, taken.length)

/-- Looks at the text to come without reading it. -/
def ahead : Reader (List Char) := fun cs ↦ some (cs, 0)

/-- Whether the text ends here. -/
def atEnd : Reader Bool := List.isEmpty <$> ahead

/-- Reads as often as the reader reads anything. -/
def many (r : Reader α) : Reader (List α)
  | [] => some ([], 0)
  | c :: cs =>
    match r (c :: cs) with
    | some (a, used + 1) =>
      (many r (cs.drop used)).map fun (as, more) ↦ (a :: as, used + 1 + more)
    | _ => some ([], 0)
termination_by cs => cs.length
decreasing_by simp only [List.length_cons, List.length_drop]; omega

/-- Reads as often as the reader reads anything, with a separator between two readings. -/
def separated (r : Reader α) (separator : Reader β) : Reader (List α) := do
  let first ← r
  let others ← many (do
    let _ ← separator
    r)
  return first :: others

/-- What a reader makes of a text if it reads all of it. -/
def whole (r : Reader α) (cs : List Char) : Option α :=
  match r cs with
  | some (a, used) => if cs.length ≤ used then some a else none
  | none => none

end Reader

end PropertyFilter.Text
