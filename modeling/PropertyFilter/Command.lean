import PropertyFilter.Dialect
import PropertyFilter.FilterError
import PropertyFilter.Settings

/-!
What can be asked of the program, and what can go wrong with it.
-/

set_option autoImplicit false

namespace PropertyFilter

/-- The shells that a completion script may be for. -/
inductive Shell
  | bash
  | zsh
  | fish
  | powershell
  deriving DecidableEq

namespace Shell

def all : List Shell := [.bash, .zsh, .fish, .powershell]

def name : Shell → String
  | bash => "bash"
  | zsh => "zsh"
  | fish => "fish"
  | powershell => "powershell"

def ofName? (name : String) : Option Shell := all.find? fun shell ↦ shell.name == name

end Shell

/-- What is asked of the settings. -/
inductive SettingsCommand
  | show
  | path
  | init (force : Bool)
  | set (key value : String)
  deriving DecidableEq

inductive Command
  /-- Read expressions line by line. -/
  | session
  /-- Write an expression in dialects; those of the settings if none is given. -/
  | render (expression : String) (dialects : List Dialect) (optimize : Bool)
  /-- Show the tree of an expression. -/
  | parse (expression : String) (optimize : Bool)
  /-- Select records from a file, or from the input. -/
  | select (expression : String) (file? : Option String)
  | settings (command : SettingsCommand)
  | completions (shell : Shell)
  deriving DecidableEq

/-- Wishes that go with any command. -/
structure Flags where
  verbose : Bool
  quiet : Bool
  json : Bool
  noColor : Bool
  deriving DecidableEq

structure Invocation where
  flags : Flags
  command : Command
  deriving DecidableEq

/-- How much is logged. -/
inductive LogLevel
  | error
  | warn
  | debug
  deriving DecidableEq

def LogLevel.name : LogLevel → String
  | error => "ERROR"
  | warn => "WARN"
  | debug => "DEBUG"

/-- Wanting more goes before wanting less. -/
def Flags.logLevel (flags : Flags) : LogLevel :=
  if flags.verbose then .debug else if flags.quiet then .error else .warn

/-- Why a document is no list of records. -/
inductive InputFault
  | notAList (found : String)
  | notARecord (index : Nat) (found : String)
  deriving DecidableEq

def InputFault.message : InputFault → String
  | notAList found => "expected a JSON array of objects, found " ++ found
  | notARecord index found =>
    "record " ++ Numeral.text index ++ " is " ++ found ++ ", expected an object"

inductive CommandError
  | filter (e : FilterError)
  | settings (fault : SettingsFault)
  | input (fault : InputFault)
  /-- A text cannot be read from where it should be. -/
  | unreadable
  /-- The input is no JSON document. -/
  | malformed
  deriving DecidableEq

namespace CommandError

/-- The name of the kind of error. -/
def code : CommandError → String
  | filter (.lexical ..) => "SYNTAX_ERROR"
  | filter (.grammatical ..) => "SYNTAX_ERROR"
  | filter (.invalid ..) => "INVALID_FILTER"
  | filter (.inexpressible ..) => "UNSUPPORTED"
  | settings _ => "CONFIG_ERROR"
  | input _ => "INPUT_ERROR"
  | unreadable => "IO_ERROR"
  | malformed => "JSON_ERROR"

/-- The exit status of a run that ends with the error. -/
def exitStatus : CommandError → Nat
  | filter _ => 1
  | input _ => 1
  | malformed => 1
  | unreadable => 3
  | settings _ => 5

def message : CommandError → String
  | filter e => "filter error: " ++ e.text
  | settings fault => "configuration error: " ++ fault.message
  | input fault => "invalid input: " ++ fault.message
  | unreadable => "I/O error"
  | malformed => "serialization error"

end CommandError

end PropertyFilter
