import PropertyFilter.Command.Context
import PropertyFilter.Command.Display
import PropertyFilter.Dialect.Query
import PropertyFilter.Expression.Reading
import PropertyFilter.Filter.Normalize

/-!
Sessions: expressions are read line by line, and each is written in every dialect. No line has an
effect on another one, but the session is over with the first line that says so.
-/

set_option autoImplicit false

namespace PropertyFilter

/-- The filter of an expression, in normal form if that is wanted. -/
def Context.filter (c : Context) (optimize : Bool) (expression : String) :
    Except FilterError Filter :=
  (Filter.parse expression).map fun f ↦ if optimize then f.normalize c.collapse else f

namespace Session

/-- The lines of an input, whose ends are line feeds, each maybe after a carriage return. -/
def splitLines : List UInt8 → List (List UInt8)
  | [] => []
  | 0x0a :: bytes => [] :: splitLines bytes
  | 0x0d :: 0x0a :: bytes => [] :: splitLines bytes
  | byte :: bytes =>
    match splitLines bytes with
    | [] => [[byte]]
    | line :: lines => (byte :: line) :: lines

/-- The text that bytes encode. -/
def decode? (bytes : List UInt8) : Option String := String.fromUTF8? (ByteArray.mk bytes.toArray)

/-- Whether a line ends the session. -/
def isEnd (line : String) : Bool :=
  ["exit", "quit"].any fun word ↦ word.toList == Text.trim line.toList

/-- What a dialect makes of a filter. -/
def queryLine (c : Context) (f : Filter) (d : Dialect) : String :=
  match f.query d with
  | .ok text => Display.query c.colors d text
  | .error e => d.label ++ ": " ++ Display.painted c.colors .red e.text

/-- The answer to a line: one line for each dialect, or what is wrong; to a blank line, nothing. -/
def answer (c : Context) (line : String) : List String :=
  if Text.allBlank line.toList then []
  else
    match c.filter c.optimize line with
    | .error e => Display.filterError c.colors c.prompt.length e
    | .ok f => c.dialects.map (queryLine c f)

/-- The text of an answer, with a blank line after it. -/
def block (c : Context) (line : String) : String :=
  match answer c line with
  | [] => ""
  | lines => lines.foldr (fun line rest ↦ line ++ "\n" ++ rest) "\n"

/-- What a line is answered with, up to the next prompt; a line that ends the session is not
answered. -/
def respond (c : Context) (line : String) : Option String :=
  if isEnd line then none else some (block c line ++ c.prompt)

/-- What follows the first prompt. A line that is no text ends the session with an error. -/
def transcript (c : Context) : List (Option String) → String × Option CommandError
  | [] => ("\n", none)
  | none :: _ => ("", some .unreadable)
  | some line :: lines =>
    match respond c line with
    | none => ("\n", none)
    | some text =>
      let (rest, error?) := transcript c lines
      (text ++ rest, error?)

/-- What a session prints for an input, and the error that it ends with, if any. -/
def run (c : Context) (input : List UInt8) : String × Option CommandError :=
  let (rest, error?) := transcript c ((splitLines input).map decode?)
  (c.prompt ++ rest, error?)

end Session

end PropertyFilter
