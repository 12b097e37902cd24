import PropertyFilter.Command
import PropertyFilter.Disk
import PropertyFilter.Settings.File

/-!
What a command runs in: the environment, the settings that are kept on the disk, and the wishes of
the command line that go before them.
-/

set_option autoImplicit false

namespace PropertyFilter

/-- The variables that count. -/
structure Environment where
  /-- Where the settings are kept. -/
  settings? : Option String
  /-- The directory for the settings of all programs. -/
  configHome? : Option String
  home? : Option String
  /-- The home directory that the account has, for when no other is named. -/
  accountHome? : Option String
  /-- Whether the output is to be without colours, if there is anything in it. -/
  noColor? : Option String
  deriving DecidableEq

namespace Environment

/-- The home directory, for which the empty name does not count. -/
def homeDirectory? (env : Environment) : Option String :=
  (env.home?.filter (· != "")).or env.accountHome?

/-- The file with the settings: the one that is named, or else one in the directory for settings, or
else one in the home directory. -/
def settingsPath (env : Environment) : Except SettingsFault String :=
  match env.settings?, env.configHome?, env.homeDirectory? with
  | some path, _, _ => .ok path
  | none, some directory, _ => .ok (Path.join (Path.join directory "quaero") "config.toml")
  | none, none, some home =>
    .ok (Path.join (Path.join (Path.join home ".config") "quaero") "config.toml")
  | none, none, none => .error .noPlace

/-- The settings that are kept on the disk; without a file nothing is set. -/
def load (env : Environment) (disk : Disk) : Except SettingsFault Settings := do
  let path ← env.settingsPath
  if !disk.contains path then return .unset
  match disk.read? path with
  | none => .error .unreadable
  | some text =>
    match Settings.read? text with
    | none => .error .malformed
    | some s => return s

end Environment

structure Context where
  json : Bool
  colors : Bool
  quiet : Bool
  prompt : String
  /-- Whether filters are brought to their normal form. -/
  optimize : Bool
  /-- Whether repeated operands are left out of it. -/
  collapse : Bool
  dialects : List Dialect
  deriving DecidableEq

/-- What the flags, the environment and the settings come to. Colours are off as soon as one of them
does not want them. -/
def Context.make (flags : Flags) (env : Environment) (s : Settings) : Context where
  json := flags.json
  colors := !flags.noColor && env.noColor?.all (· == "") && s.colors
  quiet := flags.quiet
  prompt := s.prompt
  optimize := s.optimizes
  collapse := s.collapses
  dialects := s.dialects

end PropertyFilter
