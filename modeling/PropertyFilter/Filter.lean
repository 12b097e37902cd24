import PropertyFilter.Value

/-!
Filters: tests of single properties, joined by `and`, `or` and `not`.
-/

set_option autoImplicit false

namespace PropertyFilter

/-- How a property may be ordered with respect to a bound. -/
inductive Relation
  | greater
  | greaterOrEqual
  | less
  | lessOrEqual
  deriving DecidableEq

namespace Relation

/-- The relation that holds of comparable values exactly where this one fails. -/
def complement : Relation → Relation
  | greater => lessOrEqual
  | greaterOrEqual => less
  | less => greaterOrEqual
  | lessOrEqual => greater

/-- Whether values in this order, the property first, are so related. -/
def holds : Relation → Ordering → Bool
  | greater, o => o == .gt
  | greaterOrEqual, o => o != .lt
  | less, o => o == .lt
  | lessOrEqual, o => o != .gt

theorem complement_complement (r : Relation) : r.complement.complement = r := by
  cases r <;> rfl

theorem holds_complement (r : Relation) (o : Ordering) : r.complement.holds o = !r.holds o := by
  cases r <;> cases o <;> rfl

end Relation

/-- Where a pattern is looked for in a text. -/
inductive TextTest
  | startsWith
  | endsWith
  | contains
  deriving DecidableEq

/-- What is asked of one property. No value stands for the absence of the property. -/
inductive Test
  | equals (value : Option Value)
  | differs (value : Option Value)
  | ordered (relation : Relation) (bound : Value)
  | text (test : TextTest) (pattern : String)
  | present
  | oneOf (values : List Value)
  deriving DecidableEq

inductive Filter
  | and (left right : Filter)
  | or (left right : Filter)
  | not (operand : Filter)
  | test (property : String) (test : Test)
  deriving DecidableEq

namespace Test

/-- Equality of optional values as data. -/
def sameOption : Option Value → Option Value → Bool
  | some v, some w => v.same w
  | none, none => true
  | _, _ => false

/-- Equality of lists of values as data, place by place. -/
def sameList : List Value → List Value → Bool
  | v :: vs, w :: ws => v.same w && sameList vs ws
  | [], [] => true
  | _, _ => false

/-- Equality as data of what is asked. -/
def same : Test → Test → Bool
  | .equals v, .equals w => sameOption v w
  | .differs v, .differs w => sameOption v w
  | .ordered r v, .ordered s w => r == s && v.same w
  | .text t p, .text u q => t == u && p == q
  | .present, .present => true
  | .oneOf vs, .oneOf ws => sameList vs ws
  | _, _ => false

end Test

namespace Filter

/-- Equality as data: the same tree with the same names and the same values. -/
def same : Filter → Filter → Bool
  | .and a b, .and c d => a.same c && b.same d
  | .or a b, .or c d => a.same c && b.same d
  | .not a, .not b => a.same b
  | .test p s, .test q t => p == q && s.same t
  | _, _ => false

/-- The property that a single test is about. -/
def property? : Filter → Option String
  | .test property _ => some property
  | _ => none

def isTest (f : Filter) : Bool := f.property?.isSome

/-- All of the filters joined by `and`, from the left. -/
def all? : List Filter → Option Filter
  | [] => none
  | f :: fs => some (fs.foldl .and f)

/-- All of the filters joined by `or`, from the left. -/
def any? : List Filter → Option Filter
  | [] => none
  | f :: fs => some (fs.foldl .or f)

/-- The height of the tree, a single test counting one. -/
def height : Filter → Nat
  | .and a b => max a.height b.height + 1
  | .or a b => max a.height b.height + 1
  | .not a => a.height + 1
  | .test _ _ => 1

/-- The tests of the tree with their properties, from left to right. -/
def tests : Filter → List (String × Test)
  | .and a b => a.tests ++ b.tests
  | .or a b => a.tests ++ b.tests
  | .not a => a.tests
  | .test property t => [(property, t)]

end Filter

end PropertyFilter
