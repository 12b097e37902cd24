import PropertyFilter.Entries
import PropertyFilter.Number.Binary64

/-!
JSON documents. A number is an integer or a floating-point number, depending on how it was written.
The entries of an object are in the order in which they are written; reading sorts them by name.
-/

set_option autoImplicit false

namespace PropertyFilter

inductive Json
  | null
  | bool (b : Bool)
  | integer (i : Int)
  | real (x : Binary64)
  | string (s : String)
  | array (items : List Json)
  | object (entries : List (String × Json))

namespace Json

def string? : Json → Option String
  | string s => some s
  | _ => none

/-- The entry of an object under a name. -/
def entry? (name : String) : Json → Option Json
  | object entries => Entries.find? name entries
  | _ => none

/-- How messages name the kind of a document. -/
def kind : Json → String
  | null => "null"
  | bool _ => "a boolean"
  | integer _ => "a number"
  | real _ => "a number"
  | string _ => "a string"
  | array _ => "an array"
  | object _ => "an object"

end Json

end PropertyFilter
