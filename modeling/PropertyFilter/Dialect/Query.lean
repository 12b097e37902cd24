import PropertyFilter.Dialect.Graph
import PropertyFilter.Dialect.Ldap
import PropertyFilter.Dialect.Scim

/-!
Filters in any of the dialects.
-/

set_option autoImplicit false

namespace PropertyFilter.Filter

/-- The filter as a query in a dialect, unless the dialect cannot express it. -/
def query (dialect : Dialect) (f : Filter) : Except FilterError String :=
  match dialect with
  | .graph => .ok (String.ofList (Graph.query f))
  | .ldap => .ok (String.ofList (Ldap.query f))
  | .scim => (Scim.query f).map String.ofList

end PropertyFilter.Filter
