/-!
Paths of files: parts between slashes. A part is a step from one place to another, unless it is
empty or a single point, and then it stays where it is. What comes before the last step leads to the
directory that holds the place.
-/

set_option autoImplicit false

namespace PropertyFilter.Path

/-- The parts between slashes. -/
def parts : List Char → List (List Char)
  | [] => [[]]
  | c :: cs =>
    match parts cs with
    | [] => [[c]]
    | part :: others => if c = '/' then [] :: part :: others else (c :: part) :: others

/-- The path that has these parts. -/
def ofParts : List (List Char) → List Char
  | [] => []
  | [part] => part
  | part :: others => part ++ '/' :: ofParts others

/-- Whether a part leads away from the place where it is taken. -/
def isStep (part : List Char) : Bool := part != [] && part != ['.']

/-- The parts up to the last step. -/
def throughStep (parts : List (List Char)) : List (List Char) :=
  (parts.reverse.dropWhile fun part ↦ !isStep part).reverse

/-- The path to the directory that holds the place to which a path leads. -/
def parent (path : String) : String :=
  String.ofList (ofParts (throughStep (throughStep (parts path.toList)).dropLast))

/-- Whether the last part can be the name of a file. -/
def namesFile (path : String) : Bool :=
  match (parts path.toList).getLast? with
  | some part => isStep part && part != ['.', '.']
  | none => false

/-- The greatest number of bytes that a path may have. -/
def maxBytes : Nat := 4095

/-- The greatest number of bytes that a part may have. -/
def maxPartBytes : Nat := 255

/-- Whether a path can be followed at all. -/
def isUsable (path : String) : Bool :=
  path != "" && path.utf8ByteSize ≤ maxBytes && !path.toList.contains '\x00'

/-- Whether a part can be the name of something. -/
def isName (part : List Char) : Bool := (String.ofList part).utf8ByteSize ≤ maxPartBytes

/-- A path with another part after it. -/
def join (path name : String) : String :=
  match path.toList.getLast? with
  | none => name
  | some '/' => path ++ name
  | some _ => path ++ "/" ++ name

end PropertyFilter.Path
