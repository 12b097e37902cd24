import PropertyFilter.Dialect
import PropertyFilter.Expression.Fault

/-!
What can go wrong with a filter: its text has no lexemes or does not follow the grammar, it cannot
be made of what was given, or a dialect has no way to express it.
-/

set_option autoImplicit false

namespace PropertyFilter

inductive FilterError
  | lexical (fault : Lexeme.Fault) (place : Position)
  | grammatical (fault : Expression.Fault) (place : Position)
  | invalid (reason : InvalidFilter)
  /-- The dialect has no choice among several values, here so many on one property. -/
  | inexpressible (dialect : Dialect) (property : String) (count : Nat)
  deriving DecidableEq

namespace FilterError

/-- The place in the expression, for an error in its text. -/
def place? : FilterError → Option Position
  | lexical _ place => some place
  | grammatical _ place => some place
  | invalid _ => none
  | inexpressible .. => none

/-- What is wrong, without the place. -/
def message : FilterError → String
  | lexical fault _ => fault.message
  | grammatical fault _ => fault.message
  | invalid reason => reason.message
  | inexpressible dialect property count =>
    dialect.label ++ " filters cannot express 'in' with " ++ Numeral.text count ++
      " values on '" ++ property ++ "'"

/-- What is wrong, and where. -/
def text (e : FilterError) : String :=
  match e with
  | lexical _ place => "syntax error (" ++ place.text ++ "): " ++ e.message
  | grammatical _ place => "syntax error (" ++ place.text ++ "): " ++ e.message
  | invalid _ => "invalid filter: " ++ e.message
  | inexpressible .. => e.message

end FilterError

end PropertyFilter
