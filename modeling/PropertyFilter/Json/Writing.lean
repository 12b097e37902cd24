import PropertyFilter.Json
import PropertyFilter.Number.Shortest
import PropertyFilter.Text.Hexadecimal

/-!
JSON documents as text, on one line or laid out over lines with two blanks for each level.
-/

set_option autoImplicit false

namespace PropertyFilter.Json

open Text

/-- A character inside a string; control characters of ASCII below the blank are escaped. -/
def quotedChar (c : Char) : List Char :=
  if c = '"' then ['\\', '"']
  else if c = '\\' then ['\\', '\\']
  else if c = '\x08' then ['\\', 'b']
  else if c = '\t' then ['\\', 't']
  else if c = '\n' then ['\\', 'n']
  else if c = '\x0c' then ['\\', 'f']
  else if c = '\r' then ['\\', 'r']
  else if c.toNat < 0x20 then '\\' :: 'u' :: hexDigits .lower 4 c.toNat
  else [c]

def quoted (s : String) : List Char := '"' :: s.toList.flatMap quotedChar ++ ['"']

/-- Of two equally near texts the even one is taken; plain points are used from a hundred-thousandth
up to below ten to the sixteenth. -/
def realLayout : Decimal.Layout := ⟨.even, -5, 15, true⟩

/-- A document that holds no other one. What is no finite number is written as nothing. -/
def scalar : Json → List Char
  | bool b => if b then "true".toList else "false".toList
  | integer i => Numeral.signedDigits i
  | real x => if x.isFinite then x.text realLayout else "null".toList
  | string s => quoted s
  | _ => "null".toList

mutual

/-- The document on one line. -/
def compact : Json → List Char
  | array items => '[' :: compactItems items ++ [']']
  | object entries => '\x7b' :: compactEntries entries ++ ['\x7d']
  | document => scalar document

def compactItems : List Json → List Char
  | [] => []
  | [item] => compact item
  | item :: items => compact item ++ ',' :: compactItems items

def compactEntries : List (String × Json) → List Char
  | [] => []
  | [(name, document)] => quoted name ++ ':' :: compact document
  | (name, document) :: entries =>
    quoted name ++ ':' :: compact document ++ ',' :: compactEntries entries

end

/-- The start of a line, so many levels deep. -/
def indent (level : Nat) : List Char := '\n' :: List.replicate (2 * level) ' '

mutual

/-- The document over several lines, its first one `level` levels deep. -/
def pretty (level : Nat) : Json → List Char
  | array [] => ['[', ']']
  | array (item :: items) =>
    '[' :: indent (level + 1) ++ pretty (level + 1) item ++ prettyItems level items
  | object [] => ['\x7b', '\x7d']
  | object ((name, document) :: entries) =>
    '\x7b' :: indent (level + 1) ++ quoted name ++ ':' :: ' ' :: pretty (level + 1) document ++
      prettyEntries level entries
  | document => scalar document

/-- Further items of an array, and its end. -/
def prettyItems (level : Nat) : List Json → List Char
  | [] => indent level ++ [']']
  | item :: items =>
    ',' :: indent (level + 1) ++ pretty (level + 1) item ++ prettyItems level items

/-- Further entries of an object, and its end. -/
def prettyEntries (level : Nat) : List (String × Json) → List Char
  | [] => indent level ++ ['\x7d']
  | (name, document) :: entries =>
    ',' :: indent (level + 1) ++ quoted name ++ ':' :: ' ' :: pretty (level + 1) document ++
      prettyEntries level entries

end

/-- The document on one line. -/
def line (document : Json) : String := String.ofList document.compact

/-- The document over several lines. -/
def lines (document : Json) : String := String.ofList (document.pretty 0)

end PropertyFilter.Json
