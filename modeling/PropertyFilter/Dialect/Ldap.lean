import PropertyFilter.Filter
import PropertyFilter.Text.Hexadecimal

/-!
Filters as search filters of directory servers (RFC 4515). Such a search has groups of any number
of operands, so that operands joined alike become one group, whatever their brackets. It has no
strict bounds: next to an integer a strict bound is the bound one away, any other strict bound is
the negation of the opposite one. Points in time are counted in ticks of 100 nanoseconds from 1601.
-/

set_option autoImplicit false

namespace PropertyFilter

/-- The ticks of 100 nanoseconds from the start of 1601 to a point in time. -/
def DateTime.ticks (t : DateTime) : Int := (t.seconds + 11644473600) * 10000000 + t.nanos / 100

namespace Ldap

open Text

/-- Whether all operands of a group have to match, or any. -/
inductive Join
  | all
  | any
  deriving DecidableEq

/-- How the value of an attribute is compared. -/
inductive Comparison
  | equal
  | atLeast
  | atMost
  deriving DecidableEq

/-- A part of what an attribute is compared with. -/
inductive Piece
  /-- Text, of which what has a meaning of its own in a search is escaped. -/
  | text (content : List Char)
  /-- Bytes, all of which are escaped. -/
  | bytes (content : List UInt8)
  /-- Any text. -/
  | wildcard
  deriving DecidableEq

inductive Search
  | group (join : Join) (operands : List Search)
  | negation (operand : Search)
  | item (name : String) (comparison : Comparison) (assertion : List Piece)

/-! ### Text of a search -/

def Join.symbol : Join → Char
  | all => '&'
  | any => '|'

def Comparison.symbol : Comparison → List Char
  | equal => ['=']
  | atLeast => ['>', '=']
  | atMost => ['<', '=']

/-- A byte as a backslash and two hexadecimal digits. -/
def escapeByte (letters : LetterCase) (byte : UInt8) : List Char :=
  '\\' :: hexDigits letters 2 byte.toNat

/-- Characters that stand for themselves: those of ASCII that are printed, less the ones that
delimit groups, escapes and wildcards. -/
def isPlain (c : Char) : Bool :=
  0x20 ≤ c.toNat && c.toNat < 0x7f && !(['*', '(', ')', '\\'].contains c)

/-- Text with the bytes of all but plain characters escaped. -/
def escape (cs : List Char) : List Char :=
  cs.flatMap fun c ↦
    if isPlain c then [c] else (String.utf8EncodeChar c).flatMap (escapeByte .lower)

def Piece.written : Piece → List Char
  | text content => escape content
  | bytes content => content.flatMap (escapeByte .upper)
  | wildcard => ['*']

namespace Search

mutual

def written : Search → List Char
  | .group join operands => '(' :: join.symbol :: writtenAll operands ++ [')']
  | .negation operand => '(' :: '!' :: operand.written ++ [')']
  | .item name comparison assertion =>
    '(' :: name.toList ++ comparison.symbol ++ assertion.flatMap Piece.written ++ [')']

def writtenAll : List Search → List Char
  | [] => []
  | search :: searches => search.written ++ writtenAll searches

end

/-! ### The search of a filter -/

/-- What stands for a value. -/
def assertion : Value → List Piece
  | .bool b => [.text (if b then "TRUE".toList else "FALSE".toList)]
  | .int i => [.text (Numeral.signedDigits i.toInt)]
  | .bigInt i => [.text (Numeral.signedDigits i)]
  | .float x => [.text (x.text Binary64.literalLayout)]
  | .string s => [.text s.toList]
  | .dateTime t => [.text (Numeral.signedDigits t.ticks)]
  | .uuid u => [.bytes u.fieldBytes]

/-- An attribute has any value. -/
def present (property : String) : Search := .item property .equal [.wildcard]

def equals (property : String) : Option Value → Search
  | some value => .item property .equal (assertion value)
  | none => .negation (present property)

def differs (property : String) : Option Value → Search
  | some value => .negation (.item property .equal (assertion value))
  | none => present property

/-- A bound on a property, which becomes an inclusive one. -/
def bounded (property : String) (bound : Value) : Relation → Search
  | .greaterOrEqual => .item property .atLeast (assertion bound)
  | .lessOrEqual => .item property .atMost (assertion bound)
  | .greater =>
    match bound.successor with
    | some next => .item property .atLeast (assertion next)
    | none => .negation (.item property .atMost (assertion bound))
  | .less =>
    match bound.predecessor with
    | some previous => .item property .atMost (assertion previous)
    | none => .negation (.item property .atLeast (assertion bound))

/-- A text with wildcards where it may go on. -/
def matching (pattern : String) : TextTest → List Piece
  | .startsWith => [.text pattern.toList, .wildcard]
  | .endsWith => [.wildcard, .text pattern.toList]
  | .contains => [.wildcard, .text pattern.toList, .wildcard]

def ofTest (property : String) : Test → Search
  | .equals value => equals property value
  | .differs value => differs property value
  | .ordered relation bound => bounded property bound relation
  | .text test pattern => .item property .equal (matching pattern test)
  | .present => present property
  | .oneOf values =>
    .group .any (values.map fun value ↦ .item property .equal (assertion value))

/-- The negation of a filter, whose own search is given. An equality is negated by a difference. -/
def negationOf : Filter → Search → Search
  | .test property (.equals value), _ => differs property value
  | _, search => .negation search

mutual

/-- The search of a filter. -/
def ofFilter : Filter → Search
  | .and a b => .group .all (conjuncts a ++ conjuncts b)
  | .or a b => .group .any (disjuncts a ++ disjuncts b)
  | .not a => negationOf a (ofFilter a)
  | .test property t => ofTest property t

/-- The searches that a filter adds to a group of which all have to match. -/
def conjuncts : Filter → List Search
  | .and a b => conjuncts a ++ conjuncts b
  | .or a b => [.group .any (disjuncts a ++ disjuncts b)]
  | .not a => [negationOf a (ofFilter a)]
  | .test property t => [ofTest property t]

/-- The searches that a filter adds to a group of which any has to match. -/
def disjuncts : Filter → List Search
  | .and a b => [.group .all (conjuncts a ++ conjuncts b)]
  | .or a b => disjuncts a ++ disjuncts b
  | .not a => [negationOf a (ofFilter a)]
  | .test property t => [ofTest property t]

end

end Search

/-- A filter as a search. -/
def query (f : Filter) : List Char := (Search.ofFilter f).written

end Ldap

end PropertyFilter
