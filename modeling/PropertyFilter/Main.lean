import PropertyFilter.Command.Arguments
import PropertyFilter.Command.Running

/-!
The program: it hands the environment, the files that a command may look at and the input over to
the command, prints what comes of it, and keeps the files that the command has written.
-/

set_option autoImplicit false

namespace PropertyFilter.Program

def environment : IO Environment := do
  return ⟨← IO.getEnv "QUAERO_CONFIG", ← IO.getEnv "XDG_CONFIG_HOME", ← IO.getEnv "HOME",
    none, ← IO.getEnv "NO_COLOR"⟩

def pathOf (place : Disk.Place) : String := "/".intercalate place

/-- What is found under a path. A directory cannot be opened as a file; nothing is said of a path
that leads nowhere. -/
def look (path : String) : IO (Option Disk.Node) := do
  try
    return some (.file (String.fromUTF8? (← IO.FS.readBinFile path)))
  catch
    | .noFileOrDirectory .. => return none
    | _ => return some (.directory [])

/-- A disk with what is on the way along some parts of a path, and at its end. -/
def snapshotParts (disk : Disk) (place : Disk.Place) : List (List Char) → IO Disk
  | [] => return disk
  | part :: parts => do
    let next := Disk.follow place part
    match disk.at? next with
    | some (.file _) => return disk
    | some (.directory _) => snapshotParts disk next parts
    | none =>
      match ← look (pathOf next) with
      | none => snapshotParts disk next parts
      | some (.file text?) => return disk.put next (.file text?)
      | some node => snapshotParts (disk.put next node) next parts

/-- A disk with what is on the way along a path, and at its end. -/
def snapshot (disk : Disk) (path : String) : IO Disk :=
  if Path.isUsable path then
    snapshotParts disk (Disk.start path) (Path.parts path.toList)
  else return disk

/-- All bytes of the input that are left, after those read so far. -/
partial def readInput (input : IO.FS.Stream) (sofar : ByteArray) : IO ByteArray := do
  let bytes ← input.read 65536
  if bytes.isEmpty then return sofar else readInput input (sofar ++ bytes)

/-- The files that a command may look at. -/
def files (env : Environment) (command : Command) : List String :=
  env.settingsPath.toOption.toList ++
    match command with
    | .select _ (some file) => [file]
    | _ => []

/-- Makes the directories and writes the files that a command has added or changed. -/
def keep (before after : Disk) : IO Unit := do
  for (place, node) in after.nodes do
    match node, before.at? place with
    | .directory _, none => IO.FS.createDirAll (pathOf place)
    | .file (some text), some (.file (some old)) =>
      if text != old then IO.FS.writeFile (pathOf place) text
    | .file (some text), _ => IO.FS.writeFile (pathOf place) text
    | _, _ => pure ()

/-- What is said if that does not succeed. -/
def notKept : Command → SettingsFault
  | .settings (.init _) => .notCreated
  | _ => .notWritten

def report (flags : Flags) (e : CommandError) : IO Unit := do
  let stderr ← IO.getStderr
  if flags.json then
    stderr.putStrLn (Json.object [("error",
      .object [("code", .string e.code), ("message", .string e.message)])]).lines
  else stderr.putStrLn ("Error: " ++ e.message)

/-- The bytes of the next line with its end, after those read so far. -/
partial def readLine (input : IO.FS.Stream) (sofar : ByteArray) : IO ByteArray := do
  let bytes ← input.read 1
  let sofar := sofar ++ bytes
  if bytes.isEmpty || bytes.toList == [0x0a] then return sofar else readLine input sofar

/-- Answers line after line. -/
partial def converse (c : Context) (input output : IO.FS.Stream) : IO (Option CommandError) := do
  let bytes ← readLine input .empty
  match (Session.splitLines bytes.toList).map Session.decode? with
  | [] =>
    output.putStrLn ""
    return none
  | none :: _ => return some .unreadable
  | some line :: _ =>
    match Session.respond c line with
    | none =>
      output.putStrLn ""
      return none
    | some text =>
      output.putStr text
      output.flush
      converse c input output

/-- Runs a command, and prints what comes of it. -/
def runInvocation (i : Invocation) : IO UInt32 := do
  let env ← environment
  let disk ← (files env i.command).foldlM snapshot Disk.empty
  let stdout ← IO.getStdout
  let outcome : Outcome ← match i.command, env.load disk with
    | .session, .ok s => do
      let c := Context.make i.flags env s
      stdout.putStr c.prompt
      stdout.flush
      pure ⟨"", ← converse c (← IO.getStdin) stdout⟩
    | command, _ => do
      let input ← match command with
        | .select _ none => readInput (← IO.getStdin) .empty
        | _ => pure .empty
      let (outcome, after) := i.run env disk input.toList
      try
        keep disk after
        pure outcome
      catch _ => pure ⟨"", some (.settings (notKept i.command))⟩
  stdout.putStr outcome.output
  stdout.flush
  match outcome.error? with
  | some e => report i.flags e
  | none => pure ()
  return UInt32.ofNat outcome.exitStatus

end PropertyFilter.Program

def main (args : List String) : IO UInt32 := do
  match PropertyFilter.Invocation.ofArguments args with
  | .ok i => PropertyFilter.Program.runInvocation i
  | .error fault =>
    (← IO.getStderr).putStrLn ("error: " ++ fault.message)
    return UInt32.ofNat fault.exitStatus
