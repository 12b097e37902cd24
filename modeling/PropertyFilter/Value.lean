import PropertyFilter.DateTime
import PropertyFilter.Number.Shortest
import PropertyFilter.Number.Wide
import PropertyFilter.Uuid

/-!
The values that properties have and tests compare with. Integers of 64 bits and integers of any
size are two kinds of representation of one kind of value; equality as data tells them apart,
comparison does not.
-/

set_option autoImplicit false

namespace PropertyFilter

inductive Value
  | bool (b : Bool)
  | int (i : Int64)
  | bigInt (i : Int)
  | float (x : Binary64)
  | string (s : String)
  | dateTime (t : DateTime)
  | uuid (u : Uuid)
  deriving DecidableEq

namespace Value

/-- Whether an integer fits in 64 bits. -/
def fits (i : Int) : Bool := -9223372036854775808 ≤ i && i ≤ 9223372036854775807

/-- An integer in the narrowest representation. -/
def ofInt (i : Int) : Value := if fits i then .int (Int64.ofInt i) else .bigInt i

/-- How messages name the kind of a value. -/
def kind : Value → String
  | .bool _ => "boolean"
  | .int _ | .bigInt _ => "integer"
  | .float _ => "decimal"
  | .string _ => "string"
  | .dateTime _ => "date/time"
  | .uuid _ => "uuid"

def string? : Value → Option String
  | .string s => some s
  | _ => none

/-- The integer that a value of either representation denotes. -/
def integer? : Value → Option Int
  | .int i => some i.toInt
  | .bigInt i => some i
  | _ => none

def isInteger (v : Value) : Bool := v.integer?.isSome

/-- Whether a test may compare with the value: every value but a float that is not finite. -/
def isUsable : Value → Bool
  | .float x => x.isFinite
  | _ => true

/-- The next greater integer. -/
def successor (v : Value) : Option Value := v.integer?.map fun i ↦ ofInt (i + 1)

/-- The next smaller integer. -/
def predecessor (v : Value) : Option Value := v.integer?.map fun i ↦ ofInt (i - 1)

/-- Equality as data, where representations of integers count but the offset of a point in time
does not, and floats are equal by value. -/
def same : Value → Value → Bool
  | .bool a, .bool b => a == b
  | .int a, .int b => a == b
  | .bigInt a, .bigInt b => a == b
  | .float a, .float b => a.same b
  | .string a, .string b => a == b
  | .dateTime a, .dateTime b => a.same b
  | .uuid a, .uuid b => a == b
  | _, _ => false

/-- The order of values of one kind. Numbers are of one kind: integers compare exactly with
integers, and with a float as the float that they round to. -/
def compare : Value → Value → Option Ordering
  | .bool a, .bool b => some (Ord.compare a b)
  | .string a, .string b => some (Ord.compare a b)
  | .dateTime a, .dateTime b => some (a.compare b)
  | .uuid a, .uuid b => some (a.compare b)
  | .float a, .float b => a.compare b
  | .float a, w => w.integer?.bind fun j ↦ a.compare (Binary64.ofWide j)
  | v, .float b => v.integer?.bind fun i ↦ (Binary64.ofWide i).compare b
  | v, w =>
    match v.integer?, w.integer? with
    | some i, some j => some (Ord.compare i j)
    | _, _ => none

theorem fits_iff (i : Int) :
    fits i = true ↔ -9223372036854775808 ≤ i ∧ i ≤ 9223372036854775807 := by
  simp [fits]

theorem integer?_ofInt (i : Int) : (ofInt i).integer? = some i := by
  unfold ofInt
  split
  · next h =>
    have := (fits_iff i).1 h
    simp only [integer?, Option.some.injEq]
    exact Int64.toInt_ofInt_of_le (by omega) (by omega)
  · rfl

end Value

end PropertyFilter
