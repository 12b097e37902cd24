import PropertyFilter.FilterError

/-!
Lines of output, with colours where they are wanted.
-/

set_option autoImplicit false

namespace PropertyFilter

/-- Colours of terminals. -/
inductive Color
  | red
  | green
  | blue
  | purple
  deriving DecidableEq

namespace Color

/-- The number of a colour in the standard of terminals. -/
def number : Color → Nat
  | red => 31
  | green => 32
  | blue => 34
  | purple => 35

/-- A text in a colour, after which the default colour is back. -/
def paint (c : Color) (text : String) : String :=
  "\x1b[" ++ Numeral.text c.number ++ "m" ++ text ++ "\x1b[39m"

/-- The colour of queries in a dialect. -/
def ofDialect : Dialect → Color
  | .graph => blue
  | .ldap => purple
  | .scim => green

end Color

namespace Display

def painted (colors : Bool) (c : Color) (text : String) : String :=
  if colors then c.paint text else text

/-- A text in bold, after which nothing is set. -/
def bold (text : String) : String := "\x1b[1m" ++ text ++ "\x1b[0m"

/-- A query after the name of its dialect. -/
def query (colors : Bool) (d : Dialect) (text : String) : String :=
  d.label ++ ": " ++ painted colors (.ofDialect d) text

/-- A mark below a column of a line that began after `indent` characters. -/
def caret (colors : Bool) (indent column : Nat) : String :=
  String.ofList (List.replicate (indent + (column - 1)) ' ') ++ painted colors .red "^"

/-- An error in an expression that was typed after `indent` characters: a mark below its place, if
it has one, and what is wrong. -/
def filterError (colors : Bool) (indent : Nat) (e : FilterError) : List String :=
  match e.place? with
  | some place => [caret colors indent place.column, painted colors .red e.message]
  | none => [painted colors .red e.text]

end Display

end PropertyFilter
