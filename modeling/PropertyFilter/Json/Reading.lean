import PropertyFilter.Json
import PropertyFilter.Lexeme.Scan

/-!
Reading JSON documents. Every reader reads from the start of a text and answers with what it read
and how many characters that took. The escapes of strings are those of filter expressions. How deep
arrays and objects are nested is limited.

An integer that fits in 64 bits, with a sign or without, is held exactly. Any other number becomes
a floating-point number in two roundings: its leading digits, as many as fit in 64 bits, are one
factor, the power of ten that is left is the other.
-/

set_option autoImplicit false

namespace PropertyFilter.Json

abbrev Reader (α : Type) := List Char → Option (α × Nat)

/-- How deep arrays and objects may be nested. -/
def maxNesting : Nat := 127

def isBlank (c : Char) : Bool := c == ' ' || c == '\n' || c == '\t' || c == '\r'

/-- The number of blanks that a text begins with. -/
def blanks (cs : List Char) : Nat := (cs.takeWhile isBlank).length

/-! ### Strings -/

/-- Characters that stand for themselves in strings. -/
def isPlain (c : Char) : Bool := c != '"' && c != '\\' && 0x20 ≤ c.toNat

/-- What a string says, whose opening quote the text follows. -/
def stringBody (cs : List Char) : Option (List Char × Nat) :=
  let plain := cs.takeWhile isPlain
  match h : cs.drop plain.length with
  | '"' :: _ => some (plain, plain.length + 1)
  | '\\' :: rest =>
    match Lexeme.scanEscape 0 rest with
    | .error _ => none
    | .ok (c, length) =>
      (stringBody (rest.drop (length - 1))).map fun (text, used) ↦
        (plain ++ c :: text, plain.length + length + used)
  | _ => none
termination_by cs.length
decreasing_by
  have := congrArg List.length h
  simp only [List.length_drop, List.length_cons] at this ⊢
  omega

def readString : Reader String
  | '"' :: rest => (stringBody rest).map fun (text, used) ↦ (String.ofList text, used + 1)
  | _ => none

/-! ### Numbers -/

/-- The greatest factor that the leading digits make. -/
def maxFactor : Nat := 18446744073709551615

/-- Adds digits to a factor as long as it does not become too great; also tells how many are
added. -/
def addDigits (factor : Nat) : List Char → Nat × Nat
  | [] => (factor, 0)
  | c :: cs =>
    let next := 10 * factor + (c.toNat - '0'.toNat)
    if next ≤ maxFactor then
      let (factor, count) := addDigits next cs
      (factor, count + 1)
    else (factor, 0)

/-- The product of a number and a power of ten. Powers from `10 ^ 308` on overflow if the number is
not zero; smaller ones than `10 ^ (-308)` are divided by in steps. -/
def scale (x : Binary64) (exponent : Int) : Option Binary64 :=
  if exponent.natAbs ≤ 308 then
    let power := Binary64.ofDecimal false 1 exponent.natAbs
    if 0 ≤ exponent then
      let product := x.mul power
      if product.isFinite then some product else none
    else some (x.div power)
  else if x.same (Binary64.zero false) then some x
  else if 0 ≤ exponent then none
  else scale (x.div (Binary64.ofDecimal false 1 308)) (exponent + 308)
termination_by exponent.natAbs

/-- Exponents of more than 31 bits overflow, unless they make or leave the number zero. -/
def ofParts (negative : Bool) (factor : Nat) (places : Int) (power : Int) : Option Json :=
  let signed (x : Binary64) : Json := .real (if negative then x.neg else x)
  if power.natAbs ≤ 2147483647 then
    (scale (Binary64.ofInt factor) (places + power)).map signed
  else if factor = 0 ∨ power < 0 then some (signed (Binary64.zero false))
  else none

/-- A number without a fraction or exponent, which is an integer if 64 bits hold it. Zero with a
sign is a floating-point number. -/
def ofInteger (negative : Bool) (n : Nat) : Json :=
  if negative then
    if 0 < n ∧ n ≤ 9223372036854775808 then .integer (-n) else .real (Binary64.ofInt n).neg
  else .integer n

/-- The number that its parts say: digits before the point, those after it, and the exponent. -/
def ofNumber (n : Lexeme.Number) : Option Json :=
  let (factor, kept) := addDigits 0 n.whole
  let skipped := n.whole.length - kept
  match n.fraction, n.exponent with
  | none, none =>
    if skipped = 0 then some (ofInteger n.negative factor)
    else ofParts n.negative factor skipped 0
  | fraction, _ =>
    let (factor, places) := addDigits factor (fraction.getD [])
    ofParts n.negative factor ((skipped : Int) - places) n.power

/-- A number begins with zero only if that is all before the point. -/
def readNumber : Reader Json := fun cs ↦ do
  let sign := if cs.head? = some '-' then 1 else 0
  let whole := Lexeme.takeDigits (cs.drop sign)
  if whole = [] ∨ (whole.head? = some '0' ∧ 1 < whole.length) then none
  else
    let first := sign + whole.length
    match Lexeme.scanFraction (cs.drop first) with
    | .error () => none
    | .ok (fraction, length) =>
      let second := first + length
      match Lexeme.scanExponent (cs.drop second) with
      | .error _ => none
      | .ok (exponent, length) =>
        (ofNumber ⟨sign = 1, whole, fraction, exponent⟩).map fun n ↦ (n, second + length)

/-! ### Documents -/

/-- The items of an array from one of them on, up to the bracket that closes it. -/
def readItems (inner : Reader Json) (cs : List Char) : Option (List Json × Nat) :=
  let start := blanks cs
  match inner (cs.drop start) with
  | none => none
  | some (item, used) =>
    let stop := start + used
    let next := stop + blanks (cs.drop stop)
    match h : cs.drop next with
    | ',' :: rest =>
      (readItems inner rest).map fun (items, more) ↦ (item :: items, next + 1 + more)
    | ']' :: _ => some ([item], next + 1)
    | _ => none
termination_by cs.length
decreasing_by
  have := congrArg List.length h
  simp only [List.length_drop, List.length_cons] at this
  omega

/-- The name of an entry and the colon after it, among blanks. -/
def readName (cs : List Char) : Option (String × Nat) :=
  let start := blanks cs
  match readString (cs.drop start) with
  | none => none
  | some (name, used) =>
    let stop := start + used
    let next := stop + blanks (cs.drop stop)
    match cs.drop next with
    | ':' :: rest => some (name, next + 1 + blanks rest)
    | _ => none

/-- The entries of an object from one of them on, up to the brace that closes it. -/
def readEntries (inner : Reader Json) (cs : List Char) : Option (List (String × Json) × Nat) :=
  match readName cs with
  | none => none
  | some (name, start) =>
    match inner (cs.drop start) with
    | none => none
    | some (document, used) =>
      let stop := start + used
      let next := stop + blanks (cs.drop stop)
      match h : cs.drop next with
      | ',' :: rest =>
        (readEntries inner rest).map fun (entries, more) ↦
          ((name, document) :: entries, next + 1 + more)
      | '\x7d' :: _ => some ([(name, document)], next + 1)
      | _ => none
termination_by cs.length
decreasing_by
  have := congrArg List.length h
  simp only [List.length_drop, List.length_cons] at this
  omega

/-- What an opening bracket begins that the text follows. -/
def readArray (inner : Reader Json) : Reader Json := fun cs ↦
  let start := blanks cs
  match cs.drop start with
  | ']' :: _ => some (.array [], start + 1)
  | _ => (readItems inner cs).map fun (items, used) ↦ (.array items, used)

/-- What an opening brace begins that the text follows. -/
def readObject (inner : Reader Json) : Reader Json := fun cs ↦
  let start := blanks cs
  match cs.drop start with
  | '\x7d' :: _ => some (.object [], start + 1)
  | _ => (readEntries inner cs).map fun (entries, used) ↦ (.object (Entries.ofList entries), used)

/-- A word that a text begins with. -/
def readWord (word : String) (document : Json) : Reader Json := fun cs ↦
  if word.toList.isPrefixOf cs then some (document, word.length) else none

/-- A document, given the reader for the documents inside it; there is none where nothing may be
nested any further. -/
def readAround (inner? : Option (Reader Json)) : Reader Json := fun cs ↦
  match cs, inner? with
  | '[' :: rest, some inner => (readArray inner rest).map fun (d, used) ↦ (d, used + 1)
  | '\x7b' :: rest, some inner => (readObject inner rest).map fun (d, used) ↦ (d, used + 1)
  | '"' :: _, _ => (readString cs).map fun (s, used) ↦ (.string s, used)
  | 'n' :: _, _ => readWord "null" .null cs
  | 't' :: _, _ => readWord "true" (.bool true) cs
  | 'f' :: _, _ => readWord "false" (.bool false) cs
  | _, _ => readNumber cs

/-- A document with arrays and objects nested so deep at most. -/
def readNested : (budget : Nat) → Reader Json
  | 0 => readAround none
  | budget + 1 => readAround (some (readNested budget))

/-- Reads a text as one document, which may stand among blanks. -/
def read? (text : String) : Option Json := do
  let cs := text.toList
  let start := blanks cs
  let (document, used) ← readNested maxNesting (cs.drop start)
  if (cs.drop (start + used)).all isBlank then some document else none

end PropertyFilter.Json
