import PropertyFilter.Number.Shortest
import PropertyFilter.Uuid

/-!
Lexemes, the smallest parts of a filter expression. Words are not told apart here: whether `and`,
`eq` or `true` is a keyword or a property depends on where it stands.
-/

set_option autoImplicit false

namespace PropertyFilter

inductive Lexeme
  /-- A name of letters, digits and underscores, in segments joined by points. -/
  | word (name : String)
  /-- A quoted text, its escapes decoded. -/
  | string (text : String)
  /-- A quoted identifier, and its text as written. -/
  | uuid (value : Uuid) (text : String)
  | integer (value : Int)
  /-- A number with a fraction or an exponent. -/
  | decimal (value : Binary64)
  | openParen
  | closeParen
  | openBracket
  | closeBracket
  | comma
  deriving DecidableEq

/-- Letters of ASCII in either case are alike, all other characters are themselves. -/
def foldCase (s : String) : List Char := s.toList.map Char.toLower

/-- Whether two texts differ at most in the case of letters of ASCII. -/
def alike (s t : String) : Bool := foldCase s == foldCase t

namespace Lexeme

/-- How messages name a lexeme. -/
def description : Lexeme → String
  | .word name => "'" ++ name ++ "'"
  | .string text => "string \"" ++ text ++ "\""
  | .uuid _ text => "uuid \"" ++ text ++ "\""
  | .integer value => "number " ++ Numeral.signedText value
  | .decimal value => "number " ++ String.ofList (value.text Binary64.literalLayout)
  | .openParen => "'('"
  | .closeParen => "')'"
  | .openBracket => "'['"
  | .closeBracket => "']'"
  | .comma => "','"

/-- Whether the lexeme is a given word, in letters of either case. -/
def isWord (keyword : String) : Lexeme → Bool
  | .word name => alike name keyword
  | _ => false

/-- Why a text does not begin with a lexeme. -/
inductive Fault
  | unexpectedCharacter (c : Char)
  | unterminatedString
  | unterminatedEscape
  | unknownEscape (c : Char)
  | incompleteCode
  | unpairedSurrogate
  | invalidCode
  | malformedUuid (text : String)
  | malformedNumber
  | unreadableNumber (text : String)
  deriving DecidableEq

def Fault.message : Fault → String
  | unexpectedCharacter c => "unexpected character '" ++ c.toString ++ "'"
  | unterminatedString => "unterminated string literal"
  | unterminatedEscape => "unterminated escape sequence"
  | unknownEscape c => "invalid escape sequence '\\" ++ c.toString ++ "'"
  | incompleteCode => "\\u escape needs four hex digits"
  | unpairedSurrogate => "unpaired surrogate in \\u escape"
  | invalidCode => "invalid \\u escape"
  | malformedUuid text => "malformed UUID literal \"" ++ text ++ "\""
  | malformedNumber => "malformed number literal"
  | unreadableNumber text => "malformed number literal " ++ text

end Lexeme

end PropertyFilter
