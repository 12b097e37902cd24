import PropertyFilter.Filter.Canonical

/-!
Filters as query parameters: infix operators, except for the tests of texts, which are calls.
Inside a quoted text a quote is written twice. Presence is written as a difference from nothing,
and points in time stand without quotes.
-/

set_option autoImplicit false

namespace PropertyFilter.Graph

/-- A text in quotes. -/
def quoted (s : String) : List Char :=
  '"' :: (s.toList.flatMap fun c ↦ if c = '"' then ['"', '"'] else [c]) ++ ['"']

def literal : Value → List Char
  | .bool b => if b then "true".toList else "false".toList
  | .int i => Numeral.signedDigits i.toInt
  | .bigInt i => Numeral.signedDigits i
  | .float x => x.text Binary64.literalLayout
  | .string s => quoted s
  | .dateTime t => t.text
  | .uuid u => '"' :: u.text ++ ['"']

/-- The literal of a value, or the word for its absence. -/
def optionLiteral : Option Value → List Char
  | some value => literal value
  | none => "null".toList

/-- Literals with a comma and a blank between two of them. -/
def literals : List Value → List Char
  | [] => []
  | [value] => literal value
  | value :: values => literal value ++ ", ".toList ++ literals values

/-- The name of the function that makes a test of a text. -/
def functionName : TextTest → String
  | .startsWith => "startsWith"
  | .endsWith => "endsWith"
  | .contains => "contains"

/-- A test of a property. -/
def predicate (property : String) : Test → List Char
  | .equals value => property.toList ++ " eq ".toList ++ optionLiteral value
  | .differs value => property.toList ++ " ne ".toList ++ optionLiteral value
  | .ordered relation bound =>
    property.toList ++ ' ' :: relation.keyword.toList ++ ' ' :: literal bound
  | .text test pattern =>
    (functionName test).toList ++ '(' :: property.toList ++ ", ".toList ++ quoted pattern ++ [')']
  | .present => property.toList ++ " ne ".toList ++ optionLiteral none
  | .oneOf values => property.toList ++ " in (".toList ++ literals values ++ [')']

/-- A filter as a query parameter. -/
def query : Filter → List Char
  | .and a b => '(' :: query a ++ " and ".toList ++ query b ++ [')']
  | .or a b => '(' :: query a ++ " or ".toList ++ query b ++ [')']
  | .not a => "not(".toList ++ query a ++ [')']
  | .test property t => predicate property t

end PropertyFilter.Graph
