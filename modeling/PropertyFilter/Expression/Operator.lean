import PropertyFilter.Filter
import PropertyFilter.Lexeme
import PropertyFilter.Text.Similarity

/-!
The operators of filter expressions, and the words for them. A word is an operator in letters of
either case; for a misspelled one, the most similar operator is suggested.
-/

set_option autoImplicit false

namespace PropertyFilter

inductive Operator
  | equals
  | differs
  | ordered (relation : Relation)
  | text (test : TextTest)
  | oneOf
  | present
  deriving DecidableEq

namespace Operator

/-- The words for operators, as suggestions spell them. -/
def keywords : List (String × Operator) :=
  [("eq", .equals), ("ne", .differs), ("gt", .ordered .greater),
    ("ge", .ordered .greaterOrEqual), ("lt", .ordered .less), ("le", .ordered .lessOrEqual),
    ("sw", .text .startsWith), ("ew", .text .endsWith), ("co", .text .contains), ("in", .oneOf),
    ("pr", .present), ("startsWith", .text .startsWith), ("endsWith", .text .endsWith),
    ("contains", .text .contains)]

/-- The operator that a word stands for. -/
def ofWord? (word : String) : Option Operator :=
  (keywords.find? fun keyword ↦ alike word keyword.1).map (·.2)

/-- The operator that a lexeme stands for. -/
def ofLexeme? : Lexeme → Option Operator
  | .word name => ofWord? name
  | _ => none

/-- The keyword most similar to a word, the last one of several, if any is similar enough. -/
def suggestion? (word : String) : Option String :=
  let better (best : Option (String × Float)) (keyword : String × Operator) :
      Option (String × Float) :=
    let score := Text.similarity (foldCase word) (foldCase keyword.1)
    if score ≥ 0.8 && best.all fun found ↦ found.2 ≤ score then some (keyword.1, score) else best
  (keywords.foldl better none).map (·.1)

end Operator

end PropertyFilter
