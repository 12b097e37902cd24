import PropertyFilter.Command

/-!
Command lines. The words of a command line are taken from the left, each at the level of the command
that was named last. A switch is given at most once at a level; switches that every level has count
at whichever level they stand.

A value is checked only when the next thing is recognized after it, or at the end. So a word that is
not recognized is reported even if an unusable value stands before it. In the same way a level is
complete only after the levels below it.
-/

set_option autoImplicit false

namespace PropertyFilter

/-- Why a command line is not understood. -/
inductive UsageFault
  | unknownCommand
  | missingArgument
  | unknownArgument
  /-- A value is not among those allowed, or is missing. -/
  | invalidValue
  /-- A switch has a value. -/
  | needlessValue
  /-- Arguments exclude each other, or one is given twice. -/
  | conflict
  /-- Help is asked for. -/
  | help
  /-- The version is asked for. -/
  | version
  deriving DecidableEq

def UsageFault.message : UsageFault → String
  | unknownCommand => "unrecognized subcommand"
  | missingArgument => "a required argument was not provided"
  | unknownArgument => "unexpected argument found"
  | invalidValue => "invalid value for an argument"
  | needlessValue => "unexpected value for an argument"
  | conflict => "an argument cannot be used with another one"
  | help => "help was asked for"
  | version => "the version was asked for"

/-- The exit status of a run that ends with the command line. -/
def UsageFault.exitStatus : UsageFault → Nat
  | help => 0
  | version => 0
  | _ => 2

namespace Arguments

inductive Switch
  | verbose
  | quiet
  | json
  | noColor
  | noOptimize
  | optimize
  | force
  deriving DecidableEq

/-- An option that takes a value. -/
inductive Valued
  | dialect
  | file
  deriving DecidableEq

/-- What a word with a hyphen before it stands for. -/
inductive Flag
  | switch (s : Switch)
  | valued (v : Valued)
  | help
  | version
  deriving DecidableEq

/-- The levels of a command line. -/
inductive Level
  | program
  | session
  | render
  | parse
  | select
  | settings
  | completions
  | showSettings
  | settingsPath
  | initSettings
  | setSetting
  deriving DecidableEq

namespace Level

/-- The commands of a level, under all their names. -/
def commands : Level → List (String × Level)
  | program =>
    [("repl", session), ("render", render), ("r", render), ("parse", parse), ("p", parse),
      ("match", select), ("m", select), ("config", settings), ("completions", completions)]
  | settings =>
    [("show", showSettings), ("init", initSettings), ("set", setSetting), ("path", settingsPath)]
  | _ => []

def command? (level : Level) (word : String) : Option Level :=
  (level.commands.find? fun entry ↦ entry.1 == word).map (·.2)

/-- Whether a word names a command of the level, of which help is one where there are others. -/
def hasCommand (level : Level) (word : String) : Bool :=
  (level.command? word).isSome || (!level.commands.isEmpty && word == "help")

/-- The number of words that a level takes besides options. -/
def words : Level → Nat
  | render => 1
  | parse => 1
  | select => 1
  | completions => 1
  | setSetting => 2
  | _ => 0

/-- The options that every level has. -/
def commonFlags : List (String × Flag) :=
  [("verbose", .switch .verbose), ("quiet", .switch .quiet), ("json", .switch .json),
    ("no-color", .switch .noColor), ("help", .help), ("version", .version)]

/-- The options of a level by their long names. -/
def flags : Level → List (String × Flag)
  | render => [("dialect", .valued .dialect), ("no-optimize", .switch .noOptimize)]
  | parse => [("optimize", .switch .optimize)]
  | select => [("input", .valued .file)]
  | initSettings => [("force", .switch .force)]
  | _ => []

def flag? (level : Level) (name : String) : Option Flag :=
  ((level.flags ++ commonFlags).find? fun entry ↦ entry.1 == name).map (·.2)

/-- The long name that a letter is short for. -/
def longName? : Char → Option String
  | 'v' => some "verbose"
  | 'q' => some "quiet"
  | 'd' => some "dialect"
  | 'i' => some "input"
  | 'h' => some "help"
  | 'V' => some "version"
  | _ => none

def shortFlag? (level : Level) (letter : Char) : Option Flag :=
  (longName? letter).bind level.flag?

end Level

/-- What waits to be checked. -/
inductive Pending
  | option (v : Valued) (value? : Option String)
  | word (word : String)
  deriving DecidableEq

/-- What a level has been given so far. -/
structure Given where
  switches : List Switch
  dialects : List Dialect
  file? : Option String
  words : List String
  pending? : Option Pending
  /-- Whether all that follows is words. -/
  wordsOnly : Bool

namespace Given

def nothing : Given := ⟨[], [], none, [], none, false⟩

/-- Takes the value of an option. -/
def take (g : Given) (v : Valued) (value : String) : Except UsageFault Given :=
  match v with
  | .dialect =>
    match Dialect.ofName? value with
    | some d => .ok { g with dialects := g.dialects ++ [d] }
    | none => .error .invalidValue
  | .file =>
    if g.file?.isSome then .error .conflict
    else if value = "" then .error .invalidValue
    else .ok { g with file? := some value }

/-- Checks what waits for it. -/
def settle (g : Given) (level : Level) : Except UsageFault Given :=
  match g.pending? with
  | none => .ok g
  | some (.option v (some value)) => { g with pending? := none }.take v value
  | some (.option _ none) => .error .invalidValue
  | some (.word word) =>
    if level = .completions ∧ Shell.ofName? word = none then .error .invalidValue
    else .ok { g with pending? := none }

/-- An option without a value attached. -/
def meet (g : Given) (level : Level) (flag : Flag) : Except UsageFault Given := do
  let g ← g.settle level
  match flag with
  | .switch s =>
    if g.switches.contains s then .error .conflict
    else .ok { g with switches := g.switches ++ [s] }
  | .valued v => .ok { g with pending? := some (.option v none) }
  | .help => .error .help
  | .version => .error .version

/-- An option with a value attached. -/
def meetWith (g : Given) (level : Level) (flag : Flag) (value : String) :
    Except UsageFault Given :=
  match flag with
  | .valued v => do
    let g ← g.settle level
    g.take v value
  | _ => .error .needlessValue

/-- An option by its long name, to which a value may be attached. -/
def meetLong (g : Given) (level : Level) (cs : List Char) : Except UsageFault Given :=
  match level.flag? (String.ofList (cs.takeWhile (· != '='))) with
  | none => .error .unknownArgument
  | some flag =>
    match cs.dropWhile (· != '=') with
    | [] => g.meet level flag
    | _ :: value => g.meetWith level flag (String.ofList value)

/-- Options by their letters, of which the last one may have its value attached. -/
def meetShort (g : Given) (level : Level) : List Char → Except UsageFault Given
  | [] => .ok g
  | letter :: cs =>
    match level.shortFlag? letter with
    | none => .error .unknownArgument
    | some (.valued v) =>
      match cs with
      | [] => g.meet level (.valued v)
      | '=' :: value => g.meetWith level (.valued v) (String.ofList value)
      | value => g.meetWith level (.valued v) (String.ofList value)
    | some flag =>
      match g.meet level flag with
      | .error fault => .error fault
      | .ok g => g.meetShort level cs

/-- A word that is neither an option nor the value of one. -/
def meetWord (g : Given) (level : Level) (word : String) : Except UsageFault Given :=
  if g.words.length < level.words then do
    let g ← g.settle level
    return { g with words := g.words ++ [word], pending? := some (.word word) }
  else if level.commands.isEmpty || (g.wordsOnly && level.hasCommand word) then
    .error .unknownArgument
  else .error .unknownCommand

/-- The next word of the command line at a level. -/
def next (g : Given) (level : Level) (arg : String) : Except UsageFault Given :=
  if g.wordsOnly then g.meetWord level arg
  else
    match arg.toList with
    | ['-', '-'] => .ok { g with wordsOnly := true }
    | '-' :: '-' :: cs => g.meetLong level cs
    | '-' :: c :: cs => g.meetShort level (c :: cs)
    | _ =>
      match g.pending? with
      | some (.option v none) => .ok { g with pending? := some (.option v (some arg)) }
      | _ => g.meetWord level arg

/-- What a level has been given in the end. -/
def finish (g : Given) (level : Level) : Except UsageFault Given := do
  let g ← g.settle level
  if g.switches.contains .verbose && g.switches.contains .quiet then .error .conflict
  else if g.words.length < level.words then .error .missingArgument
  else .ok g

end Given

/-- What comes of asking for help on a command, which is named level by level. -/
def helpOn (level : Level) : List String → UsageFault
  | [] => .help
  | word :: others =>
    match level.command? word with
    | some inner => helpOn inner others
    | none => if level.hasCommand word && others.isEmpty then .help else .unknownCommand

/-- What the levels of a command line are given, the outermost first. -/
def levels (level : Level) (g : Given) : List String → Except UsageFault (List (Level × Given))
  | [] => do
    let g ← g.finish level
    return [(level, g)]
  | arg :: args =>
    if !g.wordsOnly && level.hasCommand arg then
      match level.command? arg with
      | none => .error (helpOn level args)
      | some inner => do
        let below ← levels inner .nothing args
        let g ← g.finish level
        return (level, g) :: below
    else
      match g.next level arg with
      | .error fault => .error fault
      | .ok g => levels level g args

/-- The command of the innermost level. -/
def command? (level : Level) (g : Given) : Option Command :=
  match level, g.words with
  | .program, _ => some .session
  | .session, _ => some .session
  | .render, [expression] =>
    some (.render expression g.dialects (!g.switches.contains .noOptimize))
  | .parse, [expression] => some (.parse expression (g.switches.contains .optimize))
  | .select, [expression] => some (.select expression g.file?)
  | .settings, _ => some (.settings .show)
  | .showSettings, _ => some (.settings .show)
  | .settingsPath, _ => some (.settings .path)
  | .initSettings, _ => some (.settings (.init (g.switches.contains .force)))
  | .setSetting, [key, value] => some (.settings (.set key value))
  | .completions, [shell] => (Shell.ofName? shell).map .completions
  | _, _ => none

end Arguments

open Arguments in
/-- Reads the words of a command line. -/
def Invocation.ofArguments (args : List String) : Except UsageFault Invocation := do
  let levels ← levels .program .nothing args
  let given (s : Switch) : Bool := levels.any fun level ↦ level.2.switches.contains s
  let flags : Flags := ⟨given .verbose, given .quiet, given .json, given .noColor⟩
  match levels.getLast?.bind fun (level, g) ↦ command? level g with
  | some command => return ⟨flags, command⟩
  | none => .error .missingArgument

end PropertyFilter
