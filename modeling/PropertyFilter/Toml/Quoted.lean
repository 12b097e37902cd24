import PropertyFilter.Text.Hexadecimal

/-!
Texts as TOML strings. A text is quoted in the first way in which nothing of it has to be escaped:
on one line between double or single quotes, over several lines between three double or single
quotes. A text with which no way does without escapes is written between double quotes.
-/

set_option autoImplicit false

namespace PropertyFilter.Toml

/-- Control characters other than tabs and line ends, which have to be escaped. -/
def needsEscape (c : Char) : Bool :=
  (c.toNat ≤ 0x1f && c != '\t' && c != '\n') || c.toNat == 0x7f

/-- Whether a text holds so many of a character in a row. -/
def hasRun (count : Nat) (c : Char) : List Char → Bool
  | [] => count == 0
  | d :: cs => (List.replicate count c).isPrefixOf (d :: cs) || hasRun count c cs

/-- How a text is quoted. -/
inductive Quotation
  | basic
  | literal
  | basicLines
  | literalLines
  deriving DecidableEq

namespace Quotation

def isLines : Quotation → Bool
  | basic => false
  | literal => false
  | basicLines => true
  | literalLines => true

/-- Whether the text stands in the quotation without any escapes. -/
def suits (cs : List Char) : Quotation → Bool
  | basic => !cs.any needsEscape && !cs.any fun c ↦ c == '\\' || c == '"' || c == '\n'
  | literal => !cs.any needsEscape && !cs.any fun c ↦ c == '\x27' || c == '\n'
  | basicLines => !cs.any needsEscape && !cs.contains '\\' && !hasRun 3 '"' cs
  | literalLines => !cs.any needsEscape && !hasRun 3 '\x27' cs

/-- How a text is quoted; with escapes, over several lines if it has any. -/
def choose (cs : List Char) : Quotation :=
  match [basic, literal, basicLines, literalLines].find? (suits cs) with
  | some quotation => quotation
  | none => if cs.contains '\n' then basicLines else basic

/-- The quotes on each side. -/
def mark : Quotation → List Char
  | basic => ['"']
  | literal => ['\x27']
  | basicLines => ['"', '"', '"']
  | literalLines => ['\x27', '\x27', '\x27']

end Quotation

/-- A character between double quotes that is not a quote. -/
def quotedChar (several : Bool) (c : Char) : List Char :=
  if c = '\x08' then ['\\', 'b']
  else if c = '\t' then ['\\', 't']
  else if c = '\n' then if several then ['\n'] else ['\\', 'n']
  else if c = '\x0c' then ['\\', 'f']
  else if c = '\r' then ['\\', 'r']
  else if c = '\\' then ['\\', '\\']
  else if needsEscape c then '\\' :: 'u' :: Text.hexDigits .upper 4 c.toNat
  else [c]

/-- A text between double quotes, after `run` quotes in a row that are not escaped. Over several
lines two quotes in a row may stay as they are. -/
def quotedBody (several : Bool) : (run : Nat) → List Char → List Char
  | _, [] => []
  | run, c :: cs =>
    if c = '"' then
      if several && run < 2 then '"' :: quotedBody several (run + 1) cs
      else '\\' :: '"' :: quotedBody several 0 cs
    else quotedChar several c ++ quotedBody several 0 cs

/-- A text as a string. A line end follows the opening quotes if the text has any. -/
def quoted (s : String) : List Char :=
  let cs := s.toList
  let quotation := Quotation.choose cs
  let body := match quotation with
    | .basic => quotedBody false 0 cs
    | .basicLines => quotedBody true 0 cs
    | .literal => cs
    | .literalLines => cs
  let start := if quotation.isLines && cs.contains '\n' then ['\n'] else []
  quotation.mark ++ start ++ body ++ quotation.mark

end PropertyFilter.Toml
