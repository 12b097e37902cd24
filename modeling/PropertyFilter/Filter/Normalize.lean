import PropertyFilter.Filter

/-!
The normal form of a filter: negations are pushed down to the tests, where they stay only above
tests that have no complement of their own, and a choice of one value becomes an equality. If asked
for, `and` and `or` of two equal operands become the operand.
-/

set_option autoImplicit false

namespace PropertyFilter

/-- The test that asks the opposite, where there is one. -/
def Test.complement? : Test → Option Test
  | .equals value => some (.differs value)
  | .differs value => some (.equals value)
  | .ordered relation bound => some (.ordered relation.complement bound)
  | .text _ _ => none
  | .present => none
  | .oneOf _ => none

/-- A choice of one value is an equality. -/
def Test.simplify : Test → Test
  | .oneOf [value] => .equals (some value)
  | other => other

namespace Filter

/-- The opposite of a filter in normal form, in normal form again. -/
def complement : Filter → Filter
  | .and a b => .or a.complement b.complement
  | .or a b => .and a.complement b.complement
  | .not a => a
  | .test property t =>
    match t.complement? with
    | some opposite => .test property opposite
    | none => .not (.test property t)

/-- Joins two filters, or leaves one out if they are equal and that is asked for. -/
def joined (collapse : Bool) (join : Filter → Filter → Filter) (a b : Filter) : Filter :=
  if collapse && a.same b then a else join a b

/-- The normal form. -/
def normalize (collapse : Bool) : Filter → Filter
  | .and a b => joined collapse .and (a.normalize collapse) (b.normalize collapse)
  | .or a b => joined collapse .or (a.normalize collapse) (b.normalize collapse)
  | .not a => (a.normalize collapse).complement
  | .test property t => .test property t.simplify

end Filter

end PropertyFilter
