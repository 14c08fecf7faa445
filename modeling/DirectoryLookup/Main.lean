import DirectoryLookup.Program

/-!
# The command line

Runs the program on the operating system. There is no transport in this build: a search ends with a
client that cannot connect.
-/

open DirectoryLookup

namespace DirectoryLookup.CommandLine

/-- The variables of the environment, as far as the system tells them. -/
def readEnvironment : IO (List Settings.Variable) := do
  try
    let text ← IO.FS.readFile "/proc/self/environ"
    return (text.splitOn "\x00").filterMap fun v =>
      match v.splitOn "=" with
      | name :: value => if value.isEmpty then none else some (name, "=".intercalate value)
      | [] => none
  catch _ => return []

/-- Whether an operation succeeds. -/
def succeeds {α : Type} (operation : IO α) : IO Bool := do
  try
    discard operation
    return true
  catch _ => return false

/-- Whether there is a file or directory at a path. -/
def isThere (path : String) : IO Bool :=
  succeeds (IO.FS.realPath path)

/-- What there is to read at a path. A directory is no file. -/
def look (path : String) : IO Program.Reading := do
  try
    return .text (← IO.FS.readFile path)
  catch
    | .inappropriateType .. => return .noFile
    | _ => return if ← isThere path then .unreadable else .noFile

/-- The operating system. -/
def system : Program.System IO where
  working? := do
    try
      return some (Files.namesOf (toString (← IO.currentDir)))
    catch _ => return none
  isThere := isThere
  look := look
  makeDirectories path := succeeds (IO.FS.createDirAll path)
  write path text := succeeds (IO.FS.writeFile path text)

/-- A client without a transport: it cannot connect. -/
def client (settings : Settings) : Search.Client :=
  { events := []
    connectError := some (.connect settings.host settings.port "no transport") }

/-- Prints what a program that has ended printed, and its report. -/
def finish (r : Program.Result) : IO UInt32 := do
  IO.print r.stdout
  if let some report := r.report then IO.eprintln ("Error: " ++ report)
  return r.exitCode

end DirectoryLookup.CommandLine

open DirectoryLookup.CommandLine in
/-- Runs the program with the arguments of the command line. -/
def main (args : List String) : IO UInt32 := do
  finish (← system.run (← readEnvironment) client args)
