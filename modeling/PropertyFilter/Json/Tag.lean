import PropertyFilter.Json

/-!
Tags in JSON documents: the names that say how the content beside them is to be read. A document
may hold the content before its tag; then the content is put aside until the tag is known, and what
was put aside may write its own tags in more ways.
-/

set_option autoImplicit false

namespace PropertyFilter.Json

/-- How a part of a document is come by. -/
inductive Access
  /-- Where it stands, its tag before its content. -/
  | inPlace
  /-- From among what was put aside before its tag was known. -/
  | putAside
  deriving DecidableEq

namespace Access

/-- The name under the key for the tag of an object: a text, or the only entry of an object, under
which nothing stands. -/
def tagOfEntry? (access : Access) : Json → Option String
  | .string name => some name
  | .object [(name, .null)] => some name
  | .object [(name, .object [])] =>
    match access with
    | .inPlace => none
    | .putAside => some name
  | _ => none

/-- The name that a list of a tag and its content begins with: a text, or the place of the name in
the list of all names. -/
def tagOfItem? (access : Access) (names : List String) : Json → Option String
  | .string name => some name
  | .integer place =>
    match access with
    | .inPlace => none
    | .putAside => if 0 ≤ place then names[place.toNat]? else none
  | _ => none

theorem tagOfEntry?_string (access : Access) (name : String) :
    access.tagOfEntry? (.string name) = some name := rfl

end Access

end PropertyFilter.Json
