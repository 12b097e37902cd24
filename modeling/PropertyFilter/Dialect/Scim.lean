import PropertyFilter.Filter.Canonical
import PropertyFilter.FilterError

/-!
Filters for provisioning endpoints. Their text is close to the canonical one, but in strings all
that is special in web pages and all beyond ASCII is written as escapes of UTF-16 units. There is no
test for a choice of values, which only a choice of one value does without.
-/

set_option autoImplicit false

namespace PropertyFilter.Scim

open Text

/-- The units of UTF-16 that encode a character. -/
def units (c : Char) : List Nat :=
  if c.toNat < 0x10000 then [c.toNat]
  else
    let code := c.toNat - 0x10000
    [0xd800 + code / 0x400, 0xdc00 + code % 0x400]

/-- A character as escapes of its units. -/
def escapeUnits (c : Char) : List Char := (units c).flatMap (Value.codeEscape .upper)

/-- Whether a character without a short escape stands for itself. -/
def isPlain (c : Char) : Bool :=
  0x20 ≤ c.toNat && c.toNat < 0x7f && !(['&', '<', '>', '\x27', '+', '\x60'].contains c)

/-- A character inside a quoted string. -/
def quotedChar (c : Char) : List Char :=
  match Value.shortEscape? c with
  | some escape => escape
  | none => if isPlain c then [c] else escapeUnits c

/-- The text between the quotes. The first character of a string that is shaped like an identifier
is escaped, so that it is not read as one. -/
def quotedBody (cs : List Char) : List Char :=
  match Uuid.shaped cs, cs with
  | true, c :: rest => escapeUnits c ++ rest.flatMap quotedChar
  | _, cs => cs.flatMap quotedChar

def quoted (s : String) : List Char := '"' :: quotedBody s.toList ++ ['"']

def literal : Value → List Char
  | .bool b => if b then "true".toList else "false".toList
  | .int i => Numeral.signedDigits i.toInt
  | .bigInt i => Numeral.signedDigits i
  | .float x => x.text Binary64.literalLayout
  | .string s => quoted s
  | .dateTime t => '"' :: t.text ++ ['"']
  | .uuid u => '"' :: u.text ++ ['"']

/-- What follows the property; for a choice of other than one value, the number of the values. -/
def predicate : Test → Except Nat (List Char)
  | .equals (some value) => .ok ("eq ".toList ++ literal value)
  | .equals none => .ok "eq null".toList
  | .differs (some value) => .ok ("ne ".toList ++ literal value)
  | .differs none => .ok "pr".toList
  | .ordered relation bound => .ok (relation.keyword.toList ++ ' ' :: literal bound)
  | .text test pattern => .ok (test.keyword.toList ++ ' ' :: quoted pattern)
  | .present => .ok "pr".toList
  | .oneOf [value] => .ok ("eq ".toList ++ literal value)
  | .oneOf values => .error values.length

/-- A filter for provisioning. -/
def query : Filter → Except FilterError (List Char)
  | .and a b => do
    let left ← query a
    let right ← query b
    return '(' :: left ++ " and ".toList ++ right ++ [')']
  | .or a b => do
    let left ← query a
    let right ← query b
    return '(' :: left ++ " or ".toList ++ right ++ [')']
  | .not a => do
    let operand ← query a
    return "not(".toList ++ operand ++ [')']
  | .test property t =>
    match predicate t with
    | .ok text => .ok (property.toList ++ ' ' :: text)
    | .error count => .error (.inexpressible .scim property count)

end PropertyFilter.Scim
