import PropertyFilter.Expression.Operator
import PropertyFilter.Filter.Checked
import PropertyFilter.Value.Stored

/-!
Filters as JSON documents: an object with the operator and its arguments, for which a list of the
two is read as well. Reading makes every test with the checks that any test is made with, the
operands of a connective before the connective, from the left.
-/

set_option autoImplicit false

namespace PropertyFilter

/-- What a node of a stored filter is. -/
inductive StoredNode
  | and
  | or
  | not
  | test (operator : Operator)
  deriving DecidableEq

namespace StoredNode

/-- The names of nodes, in the order in which they are counted. -/
def names : List (String × StoredNode) :=
  [("and", .and), ("or", .or), ("not", .not), ("equal", .test .equals),
    ("not_equal", .test .differs), ("greater_than", .test (.ordered .greater)),
    ("greater_than_or_equal", .test (.ordered .greaterOrEqual)),
    ("less_than", .test (.ordered .less)),
    ("less_than_or_equal", .test (.ordered .lessOrEqual)),
    ("starts_with", .test (.text .startsWith)), ("ends_with", .test (.text .endsWith)),
    ("contains", .test (.text .contains)), ("presence", .test .present), ("in", .test .oneOf)]

def ofName? (name : String) : Option StoredNode :=
  (names.find? fun entry ↦ entry.1 == name).map (·.2)

def name (node : StoredNode) : String :=
  ((names.find? fun entry ↦ entry.2 == node).map (·.1)).getD ""

theorem ofName?_name (node : StoredNode) : ofName? node.name = some node := by
  cases node with
  | test operator =>
    cases operator with
    | ordered relation => cases relation <;> decide
    | text test => cases test <;> decide
    | _ => decide
  | _ => decide

end StoredNode

namespace Test

def operator : Test → Operator
  | .equals _ => .equals
  | .differs _ => .differs
  | .ordered relation _ => .ordered relation
  | .text test _ => .text test
  | .present => .present
  | .oneOf _ => .oneOf

/-- The document of a value or of its absence. -/
def storedOption : Option Value → Json
  | some value => value.stored
  | none => .null

/-- The arguments of a test besides the property. -/
def storedArguments : Test → List (String × Json)
  | .equals value => [("value", storedOption value)]
  | .differs value => [("value", storedOption value)]
  | .ordered _ bound => [("value", bound.stored)]
  | .text _ pattern => [("value", .string pattern)]
  | .present => []
  | .oneOf values => [("values", .array (values.map Value.stored))]

end Test

namespace Filter

def storedNode (node : StoredNode) (arguments : Json) : Json :=
  .object [("op", .string node.name), ("args", arguments)]

/-- The document of a filter. -/
def stored : Filter → Json
  | .and a b => storedNode .and (.array [a.stored, b.stored])
  | .or a b => storedNode .or (.array [a.stored, b.stored])
  | .not a => storedNode .not a.stored
  | .test property t =>
    storedNode (.test t.operator) (.object (("name", .string property) :: t.storedArguments))

/-! ### Reading -/

/-- Why a document is no filter. -/
inductive StoredFault
  /-- The document does not have the form of a stored filter. -/
  | malformed
  /-- The innermost test that does not pass the check. -/
  | invalid (reason : InvalidFilter)
  deriving DecidableEq

/-- A value that may be absent, or stored as nothing. -/
def optionOfStored? (access : Json.Access) : Option Json → Option (Option Value)
  | none => some none
  | some .null => some none
  | some document => (Value.ofStored? access document).map some

/-- The last argument of a test, which the operator asks for. -/
def testOfStored? (access : Json.Access) (operator : Operator) (argument : Option Json) :
    Option Test :=
  match operator, argument with
  | .equals, argument => (optionOfStored? access argument).map .equals
  | .differs, argument => (optionOfStored? access argument).map .differs
  | .ordered relation, some document =>
    (Value.ofStored? access document).map (.ordered relation)
  | .text t, some (.string pattern) => some (.text t pattern)
  | .present, _ => some .present
  | .oneOf, some (.array items) => (items.mapM (Value.ofStored? access)).map .oneOf
  | _, _ => none

/-- The name of the last argument of an operator. -/
def argumentName : Operator → String
  | .oneOf => "values"
  | _ => "value"

/-- The property and the test that an operator makes of its arguments. -/
def predicateOfStored? (access : Json.Access) (operator : Operator) :
    Json → Option (String × Test)
  | .object entries =>
    match Entries.find? "name" entries with
    | some (.string property) =>
      (testOfStored? access operator (Entries.find? (argumentName operator) entries)).map
        fun t ↦ (property, t)
    | _ => none
  | _ => none

/-- A connective of two filters. -/
def ofOperands (join : Filter → Filter → Filter) : List Filter → Except StoredFault Filter
  | [a, b] => .ok (join a b)
  | _ => .error .malformed

/-- The filter of a node, given how its arguments are read as a list of filters and as one. A test
is not checked before all of its node has been read. -/
def ofStoredNode (access : Json.Access) (node : StoredNode) (arguments : Json)
    (isWhole : Bool) (operands : Unit → Except StoredFault (List Filter))
    (operand : Unit → Except StoredFault Filter) : Except StoredFault Filter :=
  let whole (f : Except StoredFault Filter) : Except StoredFault Filter :=
    if isWhole then f else .error .malformed
  match node with
  | .and =>
    match operands () with
    | .error fault => .error fault
    | .ok fs => whole (ofOperands .and fs)
  | .or =>
    match operands () with
    | .error fault => .error fault
    | .ok fs => whole (ofOperands .or fs)
  | .not =>
    match operand () with
    | .error fault => .error fault
    | .ok f => whole (.ok (.not f))
  | .test operator =>
    match predicateOfStored? access operator arguments with
    | none => .error .malformed
    | some (property, t) => whole ((make property t).mapError .invalid)

mutual

/-- The filter of a document. The arguments of an object stand before its operator. -/
def ofStored (access : Json.Access) : Json → Except StoredFault Filter
  | .object entries =>
    match ((Entries.find? "op" entries).bind access.tagOfEntry?).bind StoredNode.ofName? with
    | none => .error .malformed
    | some node => ofStoredEntries node entries
  | .array (tag :: arguments :: others) =>
    match (access.tagOfItem? (StoredNode.names.map (·.1)) tag).bind StoredNode.ofName? with
    | none => .error .malformed
    | some node =>
      ofStoredNode access node arguments others.isEmpty
        (fun _ ↦ operandsOfStored access arguments) (fun _ ↦ ofStored access arguments)
  | _ => .error .malformed

/-- The filter of a node whose arguments are among these entries. -/
def ofStoredEntries (node : StoredNode) : List (String × Json) → Except StoredFault Filter
  | [] => .error .malformed
  | (name, arguments) :: entries =>
    if name == "args" then
      ofStoredNode .putAside node arguments true
        (fun _ ↦ operandsOfStored .putAside arguments) (fun _ ↦ ofStored .putAside arguments)
    else ofStoredEntries node entries

/-- The filters of the items of a list. -/
def operandsOfStored (access : Json.Access) : Json → Except StoredFault (List Filter)
  | .array items => firstTwoOfStored access 2 items
  | _ => .error .malformed

/-- The filters of at most so many items; there may be no more of them. -/
def firstTwoOfStored (access : Json.Access) (count : Nat) :
    List Json → Except StoredFault (List Filter)
  | [] => .ok []
  | item :: items =>
    match count with
    | 0 => .error .malformed
    | count + 1 =>
      match ofStored access item with
      | .error fault => .error fault
      | .ok f =>
        match firstTwoOfStored access count items with
        | .error fault => .error fault
        | .ok fs => .ok (f :: fs)

end

end Filter

end PropertyFilter
