import PropertyFilter.Dialect
import PropertyFilter.Lexeme

/-!
The settings that persist from one run to the next. A setting that was never made has a default;
each one has a key by which a single assignment changes it and nothing else.
-/

set_option autoImplicit false

namespace PropertyFilter

structure Settings where
  prompt? : Option String
  /-- Whether filters are brought to their normal form before they are written. -/
  optimize? : Option Bool
  /-- Whether repeated operands are left out of the normal form. -/
  collapse? : Option Bool
  /-- The dialects that filters are written in, in order. -/
  dialects? : Option (List Dialect)
  color? : Option Bool
  deriving DecidableEq

/-- Why settings cannot be read, changed or kept. -/
inductive SettingsFault
  | noPlace
  | unreadable
  | malformed
  /-- The file or its directory does not come about. -/
  | notCreated
  | notWritten
  | alreadyThere (path : String)
  | unknownKey (key : String)
  | notABool (text : String)
  | unknownDialect (text : String)
  | noDialects
  deriving DecidableEq

namespace SettingsFault

/-- The keys of settings, as messages list them. -/
def keyList : String :=
  "prompt, render.optimize, render.collapse_duplicates, render.dialects, output.color"

def message : SettingsFault → String
  | noPlace => "Could not determine config directory"
  | unreadable => "Failed to read config"
  | malformed => "Failed to parse config"
  | notCreated => "Failed to create config"
  | notWritten => "Failed to write config"
  | alreadyThere path =>
    "Config file already exists at " ++ path ++ " (use --force to overwrite)"
  | unknownKey key => "Unknown config key '" ++ key ++ "'. Valid keys: " ++ keyList
  | notABool text =>
    "Invalid boolean value '" ++ text ++ "'. Use true/false, yes/no, 1/0, or on/off"
  | unknownDialect text => Dialect.unknownMessage text
  | noDialects => "render.dialects needs at least one of: graph, ldap, scim"

end SettingsFault

namespace Settings

/-- Nothing set. -/
def unset : Settings := ⟨none, none, none, none, none⟩

def prompt (s : Settings) : String := s.prompt?.getD "query> "

def optimizes (s : Settings) : Bool := s.optimize?.getD true

def collapses (s : Settings) : Bool := s.collapse?.getD false

/-- The dialects that are set; all of them if there is none. -/
def dialects (s : Settings) : List Dialect :=
  match s.dialects? with
  | some (d :: ds) => d :: ds
  | _ => Dialect.all

def colors (s : Settings) : Bool := s.color?.getD true

/-! ### Assignments -/

/-- The words for truth values, in letters of either case. -/
def readBool (text : String) : Except SettingsFault Bool :=
  if ["true", "yes", "1", "on"].any (alike text) then .ok true
  else if ["false", "no", "0", "off"].any (alike text) then .ok false
  else .error (.notABool text)

/-- The parts of a text between its commas. -/
def commaParts : List Char → List (List Char)
  | [] => [[]]
  | c :: cs =>
    match commaParts cs with
    | [] => [[c]]
    | part :: parts => if c = ',' then [] :: part :: parts else (c :: part) :: parts

/-- Adds the dialects that texts name to those found so far, unless they are among them. -/
def collectDialects (found : List Dialect) : List (List Char) → Except SettingsFault (List Dialect)
  | [] => .ok found
  | part :: parts =>
    match Dialect.ofText? (String.ofList part) with
    | none => .error (.unknownDialect (String.ofList part))
    | some d => collectDialects (if found.contains d then found else found ++ [d]) parts

/-- Reads names of dialects between commas, where blank parts do not count. -/
def readDialects (text : String) : Except SettingsFault (List Dialect) :=
  match collectDialects [] ((commaParts text.toList).filter fun part ↦ !Text.allBlank part) with
  | .error fault => .error fault
  | .ok [] => .error .noDialects
  | .ok (d :: ds) => .ok (d :: ds)

/-- The settings with the one under a key set as a text says. -/
def assign (s : Settings) (key text : String) : Except SettingsFault Settings :=
  match key with
  | "prompt" => .ok { s with prompt? := some text }
  | "render.optimize" => (readBool text).map fun b ↦ { s with optimize? := some b }
  | "render.collapse_duplicates" => (readBool text).map fun b ↦ { s with collapse? := some b }
  | "render.dialects" => (readDialects text).map fun ds ↦ { s with dialects? := some ds }
  | "output.color" => (readBool text).map fun b ↦ { s with color? := some b }
  | _ => .error (.unknownKey key)

end Settings

end PropertyFilter
