import PropertyFilter.Filter
import PropertyFilter.Value.Literal

/-!
The canonical text of a filter, which the filter language reads back. Every connective has
parentheses of its own, and operators have their short names.
-/

set_option autoImplicit false

namespace PropertyFilter

def Relation.keyword : Relation → String
  | greater => "gt"
  | greaterOrEqual => "ge"
  | less => "lt"
  | lessOrEqual => "le"

def TextTest.keyword : TextTest → String
  | startsWith => "sw"
  | endsWith => "ew"
  | contains => "co"

namespace Test

/-- The literal of a value, or the word for its absence. -/
def optionLiteral : Option Value → List Char
  | some value => value.literal
  | none => "null".toList

/-- Literals with a comma and a blank between two of them. -/
def literals : List Value → List Char
  | [] => []
  | [value] => value.literal
  | value :: values => value.literal ++ ", ".toList ++ literals values

/-- What follows the property. -/
def canonical : Test → List Char
  | .equals value => "eq ".toList ++ optionLiteral value
  | .differs value => "ne ".toList ++ optionLiteral value
  | .ordered relation bound => relation.keyword.toList ++ ' ' :: bound.literal
  | .text test pattern => test.keyword.toList ++ ' ' :: Value.quoted pattern
  | .present => "pr".toList
  | .oneOf values => "in (".toList ++ literals values ++ [')']

end Test

namespace Filter

def canonical : Filter → List Char
  | .and a b => '(' :: a.canonical ++ " and ".toList ++ b.canonical ++ [')']
  | .or a b => '(' :: a.canonical ++ " or ".toList ++ b.canonical ++ [')']
  | .not a => "not(".toList ++ a.canonical ++ [')']
  | .test property t => property.toList ++ ' ' :: t.canonical

def text (f : Filter) : String := String.ofList f.canonical

end Filter

end PropertyFilter
