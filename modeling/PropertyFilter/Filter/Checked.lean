import PropertyFilter.Filter
import PropertyFilter.Value.Literal

/-!
Construction of tests with a check of what they are made of: a property has a name that is not
blank, a value is usable, and a choice of values has at least one and none twice.
-/

set_option autoImplicit false

namespace PropertyFilter

/-- Why no filter can be made. -/
inductive InvalidFilter
  | blankProperty
  | unusableValue (value : Value)
  | noValues (property : String)
  deriving DecidableEq

def InvalidFilter.message : InvalidFilter → String
  | blankProperty => "property name must not be empty"
  | unusableValue value => value.text ++ " is not a usable filter value"
  | noValues property => "'in' filter on '" ++ property ++ "' needs at least one value"

namespace Test

def checkValue (value : Value) : Except InvalidFilter Value :=
  if value.isUsable then .ok value else .error (.unusableValue value)

/-- Adds the usable values of a list to those kept so far, in order, unless they are there. -/
def keepDistinct (kept : List Value) : List Value → Except InvalidFilter (List Value)
  | [] => .ok kept
  | value :: values =>
    match checkValue value with
    | .error fault => .error fault
    | .ok value =>
      keepDistinct (if kept.any (·.same value) then kept else kept ++ [value]) values

/-- What is asked, with all its values checked and repeated values of a choice left out. -/
def check (property : String) : Test → Except InvalidFilter Test
  | .equals none => .ok (.equals none)
  | .equals (some value) => (checkValue value).map fun v ↦ .equals (some v)
  | .differs none => .ok (.differs none)
  | .differs (some value) => (checkValue value).map fun v ↦ .differs (some v)
  | .ordered relation bound => (checkValue bound).map (.ordered relation)
  | .text test pattern => .ok (.text test pattern)
  | .present => .ok .present
  | .oneOf values =>
    match keepDistinct [] values with
    | .error fault => .error fault
    | .ok [] => .error (.noValues property)
    | .ok (value :: values) => .ok (.oneOf (value :: values))

end Test

namespace Filter

def checkProperty (property : String) : Except InvalidFilter String :=
  if Text.allBlank property.toList then .error .blankProperty else .ok property

/-- A single test, if its property and then its values pass the check. -/
def make (property : String) (t : Test) : Except InvalidFilter Filter :=
  match checkProperty property with
  | .error fault => .error fault
  | .ok property => (t.check property).map (.test property)

end Filter

namespace Test

/-- No two values of a list are equal as data. -/
def Distinct (values : List Value) : Prop :=
  values.Pairwise fun v w ↦ v.same w = false

/-- What the check ensures of a test. -/
def WellFormed : Test → Prop
  | .equals value => ∀ v ∈ value, v.isUsable = true
  | .differs value => ∀ v ∈ value, v.isUsable = true
  | .ordered _ bound => bound.isUsable = true
  | .text _ _ => True
  | .present => True
  | .oneOf values => values ≠ [] ∧ (∀ v ∈ values, v.isUsable = true) ∧ Distinct values

end Test

namespace Filter

/-- Every test of the tree has a name that is not blank and is itself well formed. -/
def WellFormed : Filter → Prop
  | .and a b => a.WellFormed ∧ b.WellFormed
  | .or a b => a.WellFormed ∧ b.WellFormed
  | .not a => a.WellFormed
  | .test property t => Text.allBlank property.toList = false ∧ t.WellFormed

end Filter

end PropertyFilter
