import PropertyFilter.Entries
import PropertyFilter.Path

/-!
Files and directories as a tree below the working directory. A path is followed step by step, and
every place on the way has to be a directory, also one that the path leaves again. Saving a file
makes the directories on the way to it, and those stay even if the file cannot be written.
-/

set_option autoImplicit false

namespace PropertyFilter

namespace Disk

inductive Node
  /-- A file, with its text if it has one. -/
  | file (text? : Option String)
  | directory (entries : List (String × Node))

/-- The names that lead to a place from the working directory. What lies above it is named by two
points, and the root of all by the empty name. -/
abbrev Place := List String

namespace Node

def entries : Node → Entries Node
  | file _ => []
  | directory entries => entries

/-- What stands at a place below a node. -/
def find? : Place → Node → Option Node
  | [], node => some node
  | name :: place, node => (Entries.find? name node.entries).bind (find? place)

/-- The node with something put at a place below it. -/
def put (thing : Node) : Place → Node → Node
  | [], _ => thing
  | name :: place, node =>
    let inner := (Entries.find? name node.entries).getD (directory [])
    directory (Entries.put name (put thing place inner) node.entries)

theorem find?_put_self (thing : Node) (place : Place) (node : Node) :
    find? place (put thing place node) = some thing := by
  induction place generalizing node with
  | nil => rfl
  | cons name place ih => simp [put, find?, entries, Entries.find?_put_self, ih]

mutual

/-- All that stands below a node at a place. -/
def nodesWithin (place : Place) : Node → List (Place × Node)
  | file _ => []
  | directory entries => entriesWithin place entries

def entriesWithin (place : Place) : List (String × Node) → List (Place × Node)
  | [] => []
  | (name, node) :: entries =>
    (place ++ [name], node) :: nodesWithin (place ++ [name]) node ++ entriesWithin place entries

end

end Node

/-- Where a part of a path leads from a place. -/
def follow (place : Place) (part : List Char) : Place :=
  if !Path.isStep part then place
  else if part = ['.', '.'] then
    match place.getLast? with
    | none => [".."]
    | some ".." => place ++ [".."]
    | some "" => place
    | some _ => place.dropLast
  else place ++ [String.ofList part]

/-- Whether a place is the working directory, one above it or the root. -/
def isAbove (place : Place) : Bool := place.all (· == "..") || place == [""]

/-- Whether a place is below the working directory. -/
def isBelow (place : Place) : Bool :=
  match place with
  | [] => false
  | name :: _ => name != ".." && name != ""

/-- Where a path begins. -/
def start (path : String) : Place := if path.toList.head? = some '/' then [""] else []

end Disk

structure Disk where
  tree : Disk.Node

namespace Disk

def empty : Disk := ⟨.directory []⟩

/-- What stands at a place. The working directory and all above it are directories. -/
def at? (disk : Disk) (place : Place) : Option Node :=
  let found := disk.tree.find? place
  if isAbove place then some (found.getD (.directory [])) else found

def isDirectory (disk : Disk) (place : Place) : Bool :=
  match disk.at? place with
  | some (.directory _) => true
  | _ => false

/-- The disk with something put at a place. -/
def put (disk : Disk) (place : Place) (node : Node) : Disk := ⟨Node.put node place disk.tree⟩

/-- Where parts lead, if every place that one is taken from is a directory. -/
def walk (disk : Disk) : Place → List (List Char) → Option Place
  | place, [] => some place
  | place, part :: parts =>
    if disk.isDirectory place && Path.isName part then disk.walk (follow place part) parts
    else none

/-- Where a path leads; there need not be anything. -/
def placeOf? (disk : Disk) (path : String) : Option Place :=
  if Path.isUsable path then disk.walk (start path) (Path.parts path.toList) else none

/-- What stands where a path leads. -/
def find? (disk : Disk) (path : String) : Option Node := (disk.placeOf? path).bind disk.at?

/-- Whether a path leads to a file or to a directory. -/
def contains (disk : Disk) (path : String) : Bool := (disk.find? path).isSome

/-- The text of the file that a path leads to. -/
def read? (disk : Disk) (path : String) : Option String :=
  match disk.find? path with
  | some (.file text?) => text?
  | _ => none

/-- The disk with a directory wherever one of these parts leads, up to the first place where there
cannot be one, and whether there is none of those. -/
def makeWay (disk : Disk) : Place → List (List Char) → Disk × Bool
  | _, [] => (disk, true)
  | place, part :: parts =>
    let next := follow place part
    if !Path.isName part then (disk, false)
    else
      match disk.at? next with
      | some (.directory _) => disk.makeWay next parts
      | some (.file _) => (disk, false)
      | none => (disk.put next (.directory [])).makeWay next parts

/-- The disk with the directory that a path leads to and all on the way, as far as they can be made,
and whether they can. -/
def makeDirectories (disk : Disk) (path : String) : Disk × Bool :=
  if path = "" then (disk, true)
  else if Path.isUsable path then disk.makeWay (start path) (Path.parts path.toList)
  else (disk, false)

/-- The disk with a text in the file that a path leads to, unless a directory is there. -/
def write? (disk : Disk) (path text : String) : Option Disk :=
  if !Path.namesFile path then none
  else
    match disk.placeOf? path with
    | none => none
    | some place =>
      if disk.isDirectory place then none else some (disk.put place (.file (some text)))

/-- What can be in the way of saving a file. -/
inductive SaveFault
  /-- The directory for it cannot be made. -/
  | directory
  | file
  deriving DecidableEq

/-- The disk after saving a file together with the directories on the way to it. -/
def save (disk : Disk) (path text : String) : Except SaveFault Unit × Disk :=
  match disk.makeDirectories (Path.parent path) with
  | (disk, false) => (.error .directory, disk)
  | (disk, true) =>
    match disk.write? path text with
    | none => (.error .file, disk)
    | some disk => (.ok (), disk)

/-- All that stands on the disk, a directory before what is in it. -/
def nodes (disk : Disk) : List (Place × Node) := disk.tree.nodesWithin []

/-- The files below the working directory. -/
def files (disk : Disk) : List (Place × Option String) :=
  disk.nodes.filterMap fun (place, node) ↦
    match node with
    | .file text? => if isBelow place then some (place, text?) else none
    | .directory _ => none

theorem at?_put_self (disk : Disk) (place : Place) (node : Node) :
    (disk.put place node).at? place = some node := by
  simp [at?, put, Node.find?_put_self]

end Disk

end PropertyFilter
