import PropertyFilter.Json
import PropertyFilter.Settings
import PropertyFilter.Toml.Quoted
import PropertyFilter.Toml.Reading

/-!
Settings as a file. Entries that are no settings do not count when the file is read; an entry of
the wrong type makes the whole file unreadable. A file that is written holds just what is set.
-/

set_option autoImplicit false

namespace PropertyFilter.Settings

/-! ### Reading -/

def boolOf? : Toml → Option Bool
  | .bool b => some b
  | _ => none

/-- A dialect is written as its name, or as an empty table under its name. -/
def dialectOf? : Toml → Option Dialect
  | .string name => Dialect.ofName? name
  | .table [(name, .table [])] => Dialect.ofName? name
  | .table [(name, .array [])] => Dialect.ofName? name
  | _ => none

def dialectsOf? : Toml → Option (List Dialect)
  | .array items => items.mapM dialectOf?
  | _ => none

/-- An entry that may be missing. -/
def entryOf? {α : Type} (decode : Toml → Option α) : Option Toml → Option (Option α)
  | none => some none
  | some v => (decode v).map some

/-- The entries of a section by name. A section may also be a list of all its entries in order, and
a point in time counts as a section with nothing in it. -/
def sectionOf? (names : List String) : Option Toml → Option (List (Option Toml))
  | none => some (names.map fun _ ↦ none)
  | some (.table entries) => some (names.map fun name ↦ Entries.find? name entries)
  | some (.array items) =>
    if names.length ≤ items.length then some ((items.take names.length).map some) else none
  | some .moment => some (names.map fun _ ↦ none)
  | some _ => none

/-- The version of a file is a number of 32 bits, whichever. -/
def isVersion : Option Toml → Bool
  | none => true
  | some (.integer i) => 0 ≤ i && i ≤ 4294967295
  | some _ => false

def promptOf? : Toml → Option String
  | .string s => some s
  | _ => none

def ofEntries? (entries : Entries Toml) : Option Settings := do
  let prompt ← entryOf? promptOf? (Entries.find? "prompt" entries)
  let rendering ← sectionOf? ["optimize", "collapse_duplicates", "dialects"]
    (Entries.find? "render" entries)
  let output ← sectionOf? ["color"] (Entries.find? "output" entries)
  match isVersion (Entries.find? "version" entries), rendering, output with
  | true, [optimize, collapse, dialects], [color] =>
    let optimize ← entryOf? boolOf? optimize
    let collapse ← entryOf? boolOf? collapse
    let dialects ← entryOf? dialectsOf? dialects
    let color ← entryOf? boolOf? color
    return ⟨prompt, optimize, collapse, dialects, color⟩
  | _, _, _ => none

/-- The settings that the text of a file holds. -/
def read? (text : String) : Option Settings := (Toml.read? text).bind ofEntries?

/-! ### Writing -/

/-- The version that is written. -/
def version : Nat := 1

def assignment (name : String) (value : List Char) : List Char :=
  name.toList ++ " = ".toList ++ value ++ ['\n']

/-- The assignment of a value, if there is one. -/
def optionalAssignment {α : Type} (name : String) (written : α → List Char) :
    Option α → List Char
  | some value => assignment name (written value)
  | none => []

def boolText (b : Bool) : List Char := if b then "true".toList else "false".toList

def dialectText (d : Dialect) : List Char := '"' :: d.name.toList ++ ['"']

/-- A list of one on one line, a longer one on a line for each. -/
def dialectsText : List Dialect → List Char
  | [] => ['[', ']']
  | [d] => '[' :: dialectText d ++ [']']
  | ds => '[' :: ds.flatMap (fun d ↦ "\n    ".toList ++ dialectText d ++ [',']) ++ ['\n', ']']

/-- The text of a file with these settings. -/
def text (s : Settings) : String :=
  String.ofList (
    assignment "version" (Numeral.digits version) ++
    optionalAssignment "prompt" Toml.quoted s.prompt? ++
    "\n[render]\n".toList ++
    optionalAssignment "optimize" boolText s.optimize? ++
    optionalAssignment "collapse_duplicates" boolText s.collapse? ++
    optionalAssignment "dialects" dialectsText s.dialects? ++
    "\n[output]\n".toList ++
    optionalAssignment "color" boolText s.color?)

/-- A file with nothing set that explains the settings, line by line. -/
def templateLines : List String :=
  ["# quaero configuration", "", "# Config schema version (do not modify)", "version = 1", "",
    "# Prompt shown by the interactive shell", "# prompt = \"query> \"", "", "[render]",
    "# optimize = true               # Simplify filters before rendering",
    "# collapse_duplicates = false   # Rewrite \"x and x\" / \"x or x\" to \"x\"",
    "# dialects = [\"graph\", \"ldap\", \"scim\"]", "", "[output]",
    "# color = true                  # Enable colors (respects NO_COLOR env)"]

def template : String :=
  templateLines.foldr (fun line rest ↦ line ++ "\n" ++ rest) ""

/-- The settings as a document. -/
def json (s : Settings) : Json :=
  let entry {α : Type} (name : String) (encode : α → Json) : Option α → List (String × Json)
    | some value => [(name, encode value)]
    | none => []
  .object (Entries.ofList (
    [("version", .integer (version : Nat)),
      ("render", .object (Entries.ofList (
        entry "optimize" .bool s.optimize? ++ entry "collapse_duplicates" .bool s.collapse? ++
          entry "dialects" (fun ds : List Dialect ↦ .array (ds.map fun d ↦ .string d.name))
            s.dialects?))),
      ("output", .object (entry "color" .bool s.color?))] ++
    entry "prompt" .string s.prompt?))

end PropertyFilter.Settings
