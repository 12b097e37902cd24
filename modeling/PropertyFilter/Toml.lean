import PropertyFilter.Entries

/-!
TOML documents, and how their tables come about. A table is opened by a header of its own, or it
comes with the header of a table inside it, or with a key in several parts. Each of these may add to
a table only as long as that is not defined in another way, so that a table is defined in one place.
-/

set_option autoImplicit false

namespace PropertyFilter

inductive Toml
  | string (s : String)
  | integer (i : Int)
  | bool (b : Bool)
  /-- A floating-point number, whichever it is. -/
  | float
  /-- A date, a time or both, whichever they are. -/
  | moment
  | array (items : List Toml)
  | table (entries : List (String × Toml))

namespace Toml

/-- How a table has come about. -/
inductive Origin
  | header
  /-- By the header of a table inside it. -/
  | implied
  /-- By a key in several parts. -/
  | dotted
  deriving DecidableEq

/-- What stands under a key while a document is read. -/
inductive Node
  | value (v : Toml)
  | table (origin : Origin) (entries : List (String × Node))
  | tables (tables : List (List (String × Node)))

/-- A change of a table that has come about in some way, unless it is not allowed. -/
abbrev Change := Origin → Entries Node → Option (Entries Node)

/-- The change made to the table that a path leads to, of several tables under one key the last.
Tables that are missing on the way come about; a key in parts does not lead into tables with a
header of their own. -/
def alter (dotted : Bool) (change : Change) : (path : List String) → Change
  | [], origin, entries => change origin entries
  | key :: path, _, entries =>
    match Entries.find? key entries with
    | none =>
      let origin := if dotted then Origin.dotted else Origin.implied
      (alter dotted change path origin []).map fun inner ↦
        Entries.put key (.table origin inner) entries
    | some (.value _) => none
    | some (.table origin inner) =>
      if dotted && origin == .header then none
      else
        (alter dotted change path origin inner).map fun inner ↦
          Entries.put key (.table origin inner) entries
    | some (.tables tables) =>
      match tables.getLast? with
      | none => none
      | some last =>
        (alter dotted change path .header last).map fun last ↦
          Entries.put key (.tables (tables.dropLast ++ [last])) entries

/-- Puts a value under a key, which may stand after others that lead to its table. -/
def assign (path : List String) (key : String) (v : Toml) : Change :=
  alter true (fun origin entries ↦
    if (origin == .dotted) == path.isEmpty then none
    else if (Entries.find? key entries).isSome then none
    else some (Entries.put key (.value v) entries)) path

/-- Opens the table of a header. -/
def openTable (path : List String) (key : String) : Change :=
  alter false (fun _ entries ↦
    match Entries.find? key entries with
    | none => some (Entries.put key (.table .header []) entries)
    | some (.table .implied inner) => some (Entries.put key (.table .header inner) entries)
    | some _ => none) path

/-- Opens a further one of the tables of a header. -/
def openFurther (path : List String) (key : String) : Change :=
  alter false (fun _ entries ↦
    match Entries.find? key entries with
    | none => some (Entries.put key (.tables [[]]) entries)
    | some (.tables tables) => some (Entries.put key (.tables (tables ++ [[]])) entries)
    | some _ => none) path

mutual

/-- The document of a node. -/
def ofNode : Node → Toml
  | .value v => v
  | .table _ entries => .table (ofNodes entries)
  | .tables tables => .array (ofTables tables)

def ofNodes : List (String × Node) → List (String × Toml)
  | [] => []
  | (key, node) :: entries => (key, ofNode node) :: ofNodes entries

def ofTables : List (List (String × Node)) → List Toml
  | [] => []
  | entries :: tables => .table (ofNodes entries) :: ofTables tables

end

/-- A line of a document that says something, its path without the last key. -/
inductive Statement
  | assignment (path : List String) (key : String) (v : Toml)
  | table (path : List String) (key : String)
  | further (path : List String) (key : String)

/-- A document as far as it is read: the path of the table that is open, and all tables. -/
structure Draft where
  current : List String
  entries : Entries Node

/-- The draft after a further statement, unless that is in conflict with those before. -/
def Draft.add (d : Draft) : Statement → Option Draft
  | .assignment path key v =>
    (alter false (assign path key v) d.current .header d.entries).map fun entries ↦
      { d with entries }
  | .table path key =>
    (openTable path key .header d.entries).map fun entries ↦ ⟨path ++ [key], entries⟩
  | .further path key =>
    (openFurther path key .header d.entries).map fun entries ↦ ⟨path ++ [key], entries⟩

/-- The entries of the document that statements make up. -/
def ofStatements? (statements : List Statement) : Option (Entries Toml) :=
  (statements.foldlM Draft.add ⟨[], []⟩).map fun d ↦ ofNodes d.entries

/-- The table of assignments between braces. -/
def ofAssignments? (assignments : List (List String × String × Toml)) : Option Toml :=
  (assignments.foldlM (fun entries (path, key, v) ↦ assign path key v .header entries) []).map
    fun entries ↦ .table (ofNodes entries)

end Toml

end PropertyFilter
