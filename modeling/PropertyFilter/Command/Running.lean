import PropertyFilter.Command.Session
import PropertyFilter.Filter.Matching
import PropertyFilter.Filter.Stored
import PropertyFilter.Json.Reading
import PropertyFilter.Json.Writing
import PropertyFilter.Text.Shown

/-!
Running commands. A command prints all that it has to print, or nothing and ends with an error; only
a session may end with an error after it has printed something. The settings are loaded before any
command but those that are about them.
-/

set_option autoImplicit false

namespace PropertyFilter

/-- What comes of a command. -/
structure Outcome where
  output : String
  error? : Option CommandError
  deriving DecidableEq

namespace Outcome

/-- All of an output, or an error. -/
def ofExcept : Except CommandError String → Outcome
  | .ok output => ⟨output, none⟩
  | .error e => ⟨"", some e⟩

def exitStatus (o : Outcome) : Nat := (o.error?.map CommandError.exitStatus).getD 0

end Outcome

namespace Command

def printed (lines : List String) : String :=
  lines.foldr (fun line rest ↦ line ++ "\n" ++ rest) ""

/-! ### Filters -/

/-- The queries of a filter in several dialects, in order, or the first error. -/
def queries (f : Filter) : List Dialect → Except FilterError (List (Dialect × String))
  | [] => .ok []
  | d :: ds =>
    match f.query d with
    | .error e => .error e
    | .ok text => (queries f ds).map fun others ↦ (d, text) :: others

/-- A query alone stands without the name of its dialect. -/
def queriesText (c : Context) (f : Filter) (found : List (Dialect × String)) : String :=
  if c.json then
    let entries := found.map fun (d, text) ↦ (d.name, Json.string text)
    printed [(Json.object (Entries.ofList (("filter", .string f.text) :: entries))).lines]
  else
    match found with
    | [(_, text)] => printed [text]
    | _ => printed (found.map fun (d, text) ↦ Display.query c.colors d text)

def runRender (c : Context) (expression : String) (dialects : List Dialect) (optimize : Bool) :
    Except FilterError String := do
  let f ← c.filter (c.optimize && optimize) expression
  let found ← queries f (if dialects.isEmpty then c.dialects else dialects)
  return queriesText c f found

def runParse (c : Context) (expression : String) (optimize : Bool) : Except FilterError String := do
  let f ← c.filter optimize expression
  return printed [if c.json then f.stored.lines else f.text]

/-! ### Records -/

def isRecord : Json → Bool
  | .object _ => true
  | _ => false

/-- The records of a document, which has to be a list of objects. -/
def records : Json → Except InputFault (List Json)
  | .array items =>
    match (items.zip (List.range items.length)).find? fun item ↦ !isRecord item.1 with
    | some (item, index) => .error (.notARecord index item.kind)
    | none => .ok items
  | document => .error (.notAList document.kind)

/-- The records of an input that satisfy a filter. -/
def runSelect (c : Context) (expression : String) (input? : Option String) :
    Except CommandError String := do
  let f ← (c.filter c.optimize expression).mapError .filter
  match input? with
  | none => .error .unreadable
  | some input =>
    match Json.read? input with
    | none => .error .malformed
    | some document => do
      let found ← (records document).mapError .input
      let selected := f.select Record.ofJson found
      return if c.json then printed [(Json.array selected).lines]
        else printed (selected.map Json.line)

/-! ### Settings -/

def boolWord (b : Bool) : String := if b then "true" else "false"

def document (entries : List (String × Json)) : String :=
  printed [(Json.object (Entries.ofList entries)).lines]

/-- The settings, each with its default if it is not set. -/
def settingsText (colors : Bool) (path : String) (isThere : Bool) (s : Settings) : String :=
  let title := "Configuration"
  printed ([if colors then Display.bold (Color.green.paint title) else title, "",
    "File: " ++ path, "Exists: " ++ boolWord isThere, "", "Settings:",
    "  prompt: " ++ String.ofList (Text.shown s.prompt.toList), "", "[render]",
    "  optimize: " ++ boolWord s.optimizes,
    "  collapse_duplicates: " ++ boolWord s.collapses,
    "  dialects: " ++ String.intercalate ", " (s.dialects.map Dialect.name), "", "[output]",
    "  color: " ++ boolWord s.colors] ++
      if isThere then []
      else ["", "(No config file exists. Run 'quaero config init' to create one.)"])

def runShow (c : Context) (env : Environment) (disk : Disk) : Except SettingsFault String := do
  let s ← env.load disk
  let path ← env.settingsPath
  let isThere := disk.contains path
  if c.json then
    return document [("path", .string path), ("exists", .bool isThere), ("config", s.json)]
  else if c.quiet then return ""
  else return settingsText c.colors path isThere s

def runPath (c : Context) (env : Environment) (disk : Disk) : Except SettingsFault String := do
  let path ← env.settingsPath
  if c.json then
    return document [("path", .string path), ("exists", .bool (disk.contains path))]
  else return printed [path]

/-- Writes the file that explains the settings. -/
def runInit (c : Context) (env : Environment) (disk : Disk) (force : Bool) :
    Except SettingsFault String × Disk :=
  match env.settingsPath with
  | .error fault => (.error fault, disk)
  | .ok path =>
    if disk.contains path && !force then (.error (.alreadyThere path), disk)
    else
      match disk.save path Settings.template with
      | (.error _, disk) => (.error .notCreated, disk)
      | (.ok (), disk) =>
        let output :=
          if c.json then document [("status", .string "success"), ("path", .string path)]
          else if c.quiet then ""
          else printed ["Created default config at: " ++ path]
        (.ok output, disk)

/-- The file with the settings and its text with one setting changed. -/
def changedSettings (env : Environment) (disk : Disk) (key value : String) :
    Except SettingsFault (String × String) := do
  let s ← env.load disk
  let path ← env.settingsPath
  let s ← s.assign key value
  return (path, s.text)

/-- Changes one setting and writes all of them. -/
def runSet (c : Context) (env : Environment) (disk : Disk) (key value : String) :
    Except SettingsFault String × Disk :=
  match changedSettings env disk key value with
  | .error fault => (.error fault, disk)
  | .ok (path, text) =>
    match disk.save path text with
    | (.error .directory, disk) => (.error .notCreated, disk)
    | (.error .file, disk) => (.error .notWritten, disk)
    | (.ok (), disk) =>
      let output :=
        if c.json then
          document [("status", .string "success"), ("key", .string key), ("value", .string value),
            ("path", .string path)]
        else if c.quiet then ""
        else printed ["Set " ++ key ++ " = " ++ value]
      (.ok output, disk)

/-- What comes of a command about the settings, and the disk after it. -/
def runSettings (c : Context) (env : Environment) (disk : Disk) (command : SettingsCommand) :
    Outcome × Disk :=
  let (result, disk) : Except SettingsFault String × Disk :=
    match command with
    | .show => (runShow c env disk, disk)
    | .path => (runPath c env disk, disk)
    | .init force => runInit c env disk force
    | .set key value => runSet c env disk key value
  (.ofExcept (result.mapError .settings), disk)

end Command

/-- What comes of an invocation, and the disk after it. -/
def Invocation.run (i : Invocation) (env : Environment) (disk : Disk) (input : List UInt8) :
    Outcome × Disk :=
  match i.command with
  | .settings command =>
    Command.runSettings (Context.make i.flags env .unset) env disk command
  | .completions _ => (⟨"", none⟩, disk)
  | command =>
    match env.load disk with
    | .error fault => (⟨"", some (.settings fault)⟩, disk)
    | .ok s =>
      let c := Context.make i.flags env s
      let outcome : Outcome :=
        match command with
        | .render expression dialects optimize =>
          .ofExcept ((Command.runRender c expression dialects optimize).mapError .filter)
        | .parse expression optimize =>
          .ofExcept ((Command.runParse c expression optimize).mapError .filter)
        | .select expression (some file) =>
          .ofExcept (Command.runSelect c expression (disk.read? file))
        | .select expression none =>
          .ofExcept (Command.runSelect c expression (Session.decode? input))
        | _ =>
          let (output, error?) := Session.run c input
          ⟨output, error?⟩
      (outcome, disk)

end PropertyFilter
