import PropertyFilter.Filter
import PropertyFilter.Record

/-!
Whether a record satisfies a filter. A test asks for the value of its property only. A property
that is absent, or that is not comparable with the operand, satisfies no test but a difference and
an equality with nothing.
-/

set_option autoImplicit false

namespace PropertyFilter

/-- A text as a value of the kind of the operand that it is compared with, if that has the text
of an identifier or of a point in time. -/
def Value.converted : Value → Value → Value
  | .string s, .uuid _ =>
    match Uuid.read? s.toList with
    | some u => .uuid u
    | none => .string s
  | .string s, .dateTime _ =>
    match DateTime.read? s.toList with
    | some t => .dateTime t
    | none => .string s
  | actual, _ => actual

/-- Nothing is converted in order to be compared with an integer. -/
theorem Value.converted_of_integer? {v : Value} {i : Int} (hv : v.integer? = some i)
    (actual : Value) : actual.converted v = actual := by
  cases v <;> simp only [integer?, reduceCtorEq] at hv
  all_goals cases actual <;> rfl

/-- Whether a pattern begins somewhere in a text. -/
def occurs (pattern : List Char) : List Char → Bool
  | [] => pattern.isEmpty
  | c :: cs => pattern.isPrefixOf (c :: cs) || occurs pattern cs

/-- Whether a text has the pattern where it is looked for. -/
def TextTest.holds (pattern text : List Char) : TextTest → Bool
  | startsWith => pattern.isPrefixOf text
  | endsWith => pattern.isSuffixOf text
  | contains => occurs pattern text

namespace Test

/-- How the value of a property, if there is one, compares with an operand. -/
def compared (actual : Option Value) (operand : Value) : Option Ordering :=
  actual.bind fun v ↦ (v.converted operand).compare operand

/-- Whether the value of a property, if there is one, equals an operand. -/
def equalTo (actual : Option Value) (operand : Value) : Bool :=
  compared actual operand == some .eq

/-- Whether the value of a property equals an operand; no operand is equal to no value. -/
def equalToOption (actual : Option Value) : Option Value → Bool
  | some operand => equalTo actual operand
  | none => actual.isNone

/-- Whether a property with this value, if it has one, passes the test. Empty patterns are in no
text, and an empty text is not present. -/
def holds (actual : Option Value) : Test → Bool
  | .equals operand => equalToOption actual operand
  | .differs operand => !equalToOption actual operand
  | .ordered relation bound => (compared actual bound).any relation.holds
  | .text t pattern =>
    pattern != "" &&
      (actual.bind Value.string?).any fun s ↦ t.holds pattern.toList s.toList
  | .present =>
    match actual with
    | some (.string s) => s != ""
    | some _ => true
    | none => false
  | .oneOf operands => operands.any (equalTo actual)

end Test

namespace Filter

/-- Whether a record satisfies a filter. -/
def holds (r : Record) : Filter → Bool
  | .and a b => a.holds r && b.holds r
  | .or a b => a.holds r || b.holds r
  | .not a => !a.holds r
  | .test property t => t.holds (r property)

/-- The things of a list whose records satisfy the filter, in their order. -/
def select {α : Type} (f : Filter) (record : α → Record) (things : List α) : List α :=
  things.filter fun thing ↦ f.holds (record thing)

end Filter

end PropertyFilter
