import PropertyFilter.Text.Blank

/-!
The query dialects that filters are written in for other programs.
-/

set_option autoImplicit false

namespace PropertyFilter

inductive Dialect
  /-- Query parameters. -/
  | graph
  /-- Search filters of directory servers. -/
  | ldap
  /-- Filters of provisioning endpoints. -/
  | scim
  deriving DecidableEq

namespace Dialect

def all : List Dialect := [.graph, .ldap, .scim]

/-- The name that is shown. -/
def label : Dialect → String
  | graph => "Graph"
  | ldap => "LDAP"
  | scim => "SCIM"

/-- The name that is written in settings and on command lines. -/
def name : Dialect → String
  | graph => "graph"
  | ldap => "ldap"
  | scim => "scim"

/-- The dialect with exactly this name. -/
def ofName? (name : String) : Option Dialect := all.find? fun d ↦ d.name == name

/-- The dialect that a text names in letters of either case, between any blanks. -/
def ofText? (text : String) : Option Dialect :=
  all.find? fun d ↦ d.name.toList == (Text.trim text.toList).map Char.toLower

/-- What is said of a text that names no dialect. -/
def unknownMessage (text : String) : String :=
  "unknown dialect '" ++ text ++ "', expected one of: graph, ldap, scim"

theorem ofName?_name (d : Dialect) : ofName? d.name = some d := by
  cases d <;> decide

end Dialect

end PropertyFilter
