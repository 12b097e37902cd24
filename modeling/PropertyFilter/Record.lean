import PropertyFilter.Json
import PropertyFilter.Value

/-!
Records: whatever gives properties their values. In a table of values and in a JSON document, names
count without regard to the case of letters, but a name that is written exactly so goes before.
-/

set_option autoImplicit false

namespace PropertyFilter

/-- The value of each property, if the record has it. -/
abbrev Record := String → Option Value

namespace Record

/-- The record of a table, whose entries are tried in their order. -/
def ofTable (table : List (String × Value)) : Record := fun property ↦
  Entries.lookup? property table

/-- The parts of a name between its points. -/
def segments : List Char → List (List Char)
  | [] => [[]]
  | c :: cs =>
    match c, segments cs with
    | '.', parts => [] :: parts
    | c, [] => [[c]]
    | c, part :: parts => (c :: part) :: parts

/-- The document that a path leads to. -/
def follow : List (List Char) → Json → Option Json
  | [], document => some document
  | segment :: path, .object entries =>
    (Entries.lookup? (String.ofList segment) entries).bind (follow path)
  | _ :: _, _ => none

/-- The value of a document which is neither null nor holds other documents. -/
def scalar? : Json → Option Value
  | .bool b => some (.bool b)
  | .integer i => some (Value.ofInt i)
  | .real x => some (.float x)
  | .string s => some (.string s)
  | _ => none

/-- The record of a document: the parts of a name lead through the objects in it. -/
def ofJson (document : Json) : Record := fun property ↦
  (follow (segments property.toList) document).bind scalar?

end Record

end PropertyFilter
