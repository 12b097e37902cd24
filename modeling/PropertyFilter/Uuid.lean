import PropertyFilter.Text.Hexadecimal

/-!
Universally unique identifiers: sixteen bytes, ordered as one number with the most significant
byte first. Their text is thirty-two hexadecimal digits in groups of 8, 4, 4, 4 and 12.
-/

set_option autoImplicit false

namespace PropertyFilter

structure Uuid where
  bytes : List UInt8
  length_bytes : bytes.length = 16
  deriving DecidableEq

namespace Uuid

open Text

/-- The digits of one group after the other, a hyphen between two groups. -/
def hyphenate : List Nat → List Char → List Char
  | [], _ => []
  | [size], cs => cs.take size
  | size :: sizes, cs => cs.take size ++ '-' :: hyphenate sizes (cs.drop size)

/-- The text without the hyphens that stand after groups of these sizes, if each stands there and
nothing follows the last group. -/
def unhyphenate : List Nat → List Char → Option (List Char)
  | [], _ => none
  | [size], cs => if cs.length = size then some cs else none
  | size :: sizes, cs =>
    match cs.drop size with
    | '-' :: rest => (unhyphenate sizes rest).map (cs.take size ++ ·)
    | _ => none

def groups : List Nat := [8, 4, 4, 4, 12]

/-- The bytes that pairs of hexadecimal digits stand for. -/
def bytesOfDigits : List Char → Option (List UInt8)
  | [] => some []
  | high :: low :: rest => do
    let h ← hexValue? high
    let l ← hexValue? low
    let bytes ← bytesOfDigits rest
    return UInt8.ofNat (16 * h + l) :: bytes
  | [_] => none

def ofDigits? (cs : List Char) : Option Uuid :=
  match bytesOfDigits cs with
  | some bytes => if h : bytes.length = 16 then some ⟨bytes, h⟩ else none
  | none => none

def ofHyphenated? (cs : List Char) : Option Uuid :=
  (unhyphenate groups cs).bind ofDigits?

/-- Whether a text begins with the scheme of a UUID name, in letters of either case. -/
def hasScheme (cs : List Char) : Bool :=
  (cs.take 9).map Char.toLower == "urn:uuid:".toList

/-- Reads the forms in which identifiers are exchanged: digits alone, digits in groups, and digits
in groups between braces or after the scheme of UUID names. -/
def read? (cs : List Char) : Option Uuid :=
  if cs.length = 32 then ofDigits? cs
  else if cs.length = 36 then ofHyphenated? cs
  else if cs.length = 38 ∧ cs.head? = some '\x7b' ∧ cs.getLast? = some '\x7d' then
    ofHyphenated? (cs.drop 1).dropLast
  else if cs.length = 45 ∧ hasScheme cs then ofHyphenated? (cs.drop 9)
  else none

/-- The text in groups, with small letters. -/
def text (u : Uuid) : List Char :=
  hyphenate groups (u.bytes.flatMap fun byte ↦ hexDigits .lower 2 byte.toNat)

/-- Whether a text has the length and the alphabet of an identifier in groups, whatever the places
of its hyphens. -/
def shaped (cs : List Char) : Bool :=
  cs.length == 36 && cs.all fun c ↦ isHexDigit c || c == '-'

/-- The bytes as one number. -/
def number (u : Uuid) : Nat := u.bytes.foldl (fun total byte ↦ 256 * total + byte.toNat) 0

def compare (u v : Uuid) : Ordering := Ord.compare u.number v.number

/-- The bytes with the first three fields, of 4, 2 and 2 bytes, in little-endian order. -/
def fieldBytes (u : Uuid) : List UInt8 :=
  (u.bytes.take 4).reverse ++ ((u.bytes.drop 4).take 2).reverse ++
    ((u.bytes.drop 6).take 2).reverse ++ u.bytes.drop 8

end Uuid

end PropertyFilter
