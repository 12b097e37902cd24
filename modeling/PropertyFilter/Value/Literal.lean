import PropertyFilter.Value

/-!
Values as literals of the filter language. A string is quoted, with escapes for quotes, for
backslashes and for control characters. An unescaped quoted text that is shaped like an identifier
would be read as one, so a string of that shape has its first character escaped.
-/

set_option autoImplicit false

namespace PropertyFilter.Value

open Text

/-- The control characters, those of the general category Cc. -/
def isControl (c : Char) : Bool :=
  c.toNat ≤ 0x1f || (0x7f ≤ c.toNat && c.toNat ≤ 0x9f)

/-- A backslash, `u`, and the code of a character below the supplementary planes. -/
def codeEscape (letters : LetterCase) (code : Nat) : List Char :=
  '\\' :: 'u' :: hexDigits letters 4 code

/-- The escape of two characters that a character has, if it has one. -/
def shortEscape? (c : Char) : Option (List Char) :=
  if c = '"' then some ['\\', '"']
  else if c = '\\' then some ['\\', '\\']
  else if c = '\n' then some ['\\', 'n']
  else if c = '\r' then some ['\\', 'r']
  else if c = '\t' then some ['\\', 't']
  else if c = '\x08' then some ['\\', 'b']
  else if c = '\x0c' then some ['\\', 'f']
  else none

/-- A character inside a quoted string. -/
def quotedChar (c : Char) : List Char :=
  match shortEscape? c with
  | some escape => escape
  | none => if isControl c then codeEscape .lower c.toNat else [c]

/-- The text between the quotes. -/
def quotedBody (cs : List Char) : List Char :=
  match Uuid.shaped cs, cs with
  | true, c :: rest => codeEscape .lower c.toNat ++ rest.flatMap quotedChar
  | _, cs => cs.flatMap quotedChar

def quoted (s : String) : List Char := '"' :: quotedBody s.toList ++ ['"']

/-- A value as a literal. Points in time and identifiers are quoted as they are. -/
def literal : Value → List Char
  | .bool b => if b then "true".toList else "false".toList
  | .int i => Numeral.signedDigits i.toInt
  | .bigInt i => Numeral.signedDigits i
  | .float x => x.text Binary64.literalLayout
  | .string s => quoted s
  | .dateTime t => '"' :: t.text ++ ['"']
  | .uuid u => '"' :: u.text ++ ['"']

def text (v : Value) : String := String.ofList v.literal

end PropertyFilter.Value
