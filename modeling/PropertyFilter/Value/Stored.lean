import PropertyFilter.Json.Tag
import PropertyFilter.Value

/-!
Values as JSON documents: an object with the type and the value, for which a list of the two is
read as well. Wide integers are stored as a sign and digits of 32 bits, the least significant
first.
-/

set_option autoImplicit false

namespace PropertyFilter.Value

/-- One more than the greatest number of 32 bits. -/
def wideBase : Nat := 4294967296

/-- The digits of a number to the wide base, the least significant first. -/
def wideDigits (n : Nat) : List Nat :=
  if _h : n = 0 then [] else n % wideBase :: wideDigits (n / wideBase)
termination_by n
decreasing_by exact Nat.div_lt_self (Nat.pos_of_ne_zero ‹_›) (by decide)

/-- The number with these digits. -/
def ofWideDigits : List Nat → Nat
  | [] => 0
  | digit :: digits => digit + wideBase * ofWideDigits digits

theorem ofWideDigits_wideDigits (n : Nat) : ofWideDigits (wideDigits n) = n := by
  induction n using Nat.strongRecOn with
  | _ n ih =>
    rw [wideDigits]
    split
    · next h => exact h.symm
    · next h =>
      rw [ofWideDigits, ih _ (Nat.div_lt_self (Nat.pos_of_ne_zero h) (by decide))]
      exact Nat.mod_add_div n wideBase

/-- The names of the types of values. -/
def storedType : Value → String
  | bool _ => "bool"
  | int _ => "int"
  | bigInt _ => "big_int"
  | float _ => "float"
  | string _ => "string"
  | dateTime _ => "date_time"
  | uuid _ => "uuid"

/-- A value without its type. What is no finite number has no document. -/
def storedContent : Value → Json
  | bool b => .bool b
  | int i => .integer i.toInt
  | bigInt i =>
    .array [.integer i.sign,
      .array ((wideDigits i.natAbs).map fun (digit : Nat) ↦ Json.integer digit)]
  | float x => if x.isFinite then .real x else .null
  | string s => .string s
  | dateTime t => .string (String.ofList t.text)
  | uuid u => .string (String.ofList u.text)

/-- The document of a value. -/
def stored (v : Value) : Json :=
  .object [("type", .string v.storedType), ("value", v.storedContent)]

/-! ### Reading -/

/-- The names of all types, in the order in which they are counted. -/
def storedTypes : List String :=
  ["bool", "int", "big_int", "float", "string", "date_time", "uuid"]

def wideDigit? : Json → Option Nat
  | .integer i => if 0 ≤ i ∧ i < wideBase then some i.toNat else none
  | _ => none

/-- A wide integer, which is not narrowed. -/
def wideInteger? : Json → Option Int
  | .array [.integer sign, .array digits] =>
    if sign = -1 ∨ sign = 0 ∨ sign = 1 then
      (digits.mapM wideDigit?).map fun ds ↦ sign * ofWideDigits ds
    else none
  | _ => none

/-- The value of a type that is stored as this content. -/
def ofStoredContent? (type : String) (content : Json) : Option Value :=
  match type, content with
  | "bool", .bool b => some (bool b)
  | "int", .integer i => if fits i then some (int (Int64.ofInt i)) else none
  | "big_int", content => (wideInteger? content).map bigInt
  | "float", .real x => some (float x)
  | "float", .integer i => some (float (Binary64.ofInt i))
  | "string", .string s => some (string s)
  | "date_time", .string s => (DateTime.readLoose? s.toList).map dateTime
  | "uuid", .string s => (Uuid.read? s.toList).map uuid
  | _, _ => none

/-- The value of a document. -/
def ofStored? (access : Json.Access) : Json → Option Value
  | .object entries => do
    let type ← (Entries.find? "type" entries).bind access.tagOfEntry?
    let content ← Entries.find? "value" entries
    ofStoredContent? type content
  | .array [tag, content] => do
    let type ← access.tagOfItem? storedTypes tag
    ofStoredContent? type content
  | _ => none

end PropertyFilter.Value
