import DirectoryLookup.Arguments
import DirectoryLookup.Expression.Json
import DirectoryLookup.Files
import DirectoryLookup.Report
import DirectoryLookup.Search.Searcher
import DirectoryLookup.Settings.Load
import DirectoryLookup.Term

/-!
# The program

Looks people up from the command line. Its settings come from a file in the user's configuration
directory, which is written if it is missing, from the environment, and from arguments. Settings
that cannot be loaded are replaced by the defaults.

The settings file is looked for as its path is given, but read by its absolute path. If there is
no file to read there, a file beside it takes its place, whose name goes on with the ending of a
format.

The program prints the filter of a query, or searches and prints people. What it does up to the
first call to a server depends on its arguments, the environment and the settings file alone.

It is written once, for any system that it may run on (`System`). The command line runs it on the
operating system; here it also runs on a tree of files, where what it does can be told.

Main statement: `run_of_read`, a command line that is followed ends as its action does.
-/

namespace DirectoryLookup.Program

open Search (Searcher)

/-! ## The settings -/

/-- The value of a variable in an environment. -/
def valueOf? (environment : List Settings.Variable) (name : String) : Option String :=
  environment.lookup name

/-- A path in a directory given as a text. -/
def inDirectory (directory name : String) : String :=
  if directory.toList.getLast?.all (· == '/') then directory ++ name
  else directory ++ "/" ++ name

/-- The directory of the settings file. -/
def settingsDirectory (environment : List Settings.Variable) : String :=
  let directory := match valueOf? environment "XDG_CONFIG_HOME" with
    | some directory => directory
    | none => inDirectory ((valueOf? environment "HOME").getD ".") ".config"
  inDirectory directory "dirsearch"

/-- The path of the settings file. -/
def settingsPath (environment : List Settings.Variable) : String :=
  inDirectory (settingsDirectory environment) "config.toml"

/-- What a file with settings has behind the path of the settings file, and its format. The first
that is there counts. -/
def settingsEndings : List (String × Settings.Format) :=
  [("", .toml), (".toml", .toml), (".json", .json), (".yaml", .yaml), (".yml", .yaml),
    (".ini", .ini), (".ron", .ron), (".json5", .json5)]

/-- Where the settings come from. -/
inductive SettingsFile
  | file (format : Settings.Format) (text : String)
  /-- There is no file to read. -/
  | absent
  /-- There is nothing at the path and nothing can be written there, or what is there cannot be
  read. -/
  | unavailable
  deriving DecidableEq, Repr

/-- The settings to start from: those of the file and the environment, or the defaults where these
cannot be loaded. -/
def baseSettings (file : SettingsFile) (environment : List Settings.Variable) : Settings :=
  match file with
  | .file format text => (Settings.load? (some (format, text)) environment).getD {}
  | .absent => (Settings.load? none environment).getD {}
  | .unavailable => {}

/-- The settings with those from the command line in their places. -/
def overridden (s : Settings) (a : Arguments) : Settings :=
  { s with
    host := a.host.getD s.host
    port := a.port.getD s.port
    searchBase := a.base.getD s.searchBase }

/-! ## What to do -/

/-- The query of the command line, or the text that reports what is wrong with it. -/
def query (a : Arguments) : Except String (Option Expression) :=
  match a.filterJson with
  | some json =>
    match Expression.ofJson json with
    | .ok e => .ok (some e)
    | .error failure => .error failure.message
  | none =>
    match Term.readAll a.terms with
    | .ok q => .ok q
    | .error e => .error e.message

/-- What the program has to do. -/
inductive Action
  /-- Print a text. -/
  | print (text : String)
  /-- Search, and print the people found. -/
  | search (searcher : Searcher) (query : Option Expression) (limit : UInt32) (json : Bool)
  /-- Report a failure. -/
  | fail (report : String)

/-- What the program has to do for a command line, given the settings to start from. -/
def action (a : Arguments) (base : Settings) : Action :=
  let settings := overridden base a
  match query a with
  | .error report => .fail report
  | .ok q =>
    match Searcher.ofSettings settings with
    | .error failure => .fail failure.message
    | .ok searcher =>
      if a.printFilter then .print (searcher.compile q ++ "\n")
      else .search searcher q (a.limit.getD base.sizeLimit) a.json

/-- How the program ends. -/
structure Result where
  exitCode : UInt32
  stdout : String := ""
  /-- The failure reported, if any. -/
  report : Option String := none
  deriving DecidableEq, Repr

/-- The end of a search with an outcome. -/
def searchResult (json : Bool) : Search.Outcome → Result
  | .ok people => { exitCode := 0, stdout := Report.people json people }
  | .error failure => { exitCode := 1, report := some failure.message }

/-- Does what is to be done, with a client to search with. -/
def Action.perform (client : Search.Client) : Action → Result
  | .print text => { exitCode := 0, stdout := text }
  | .fail report => { exitCode := 1, report := some report }
  | .search searcher q limit json =>
    searchResult json (((searcher.search q limit client).outcome?).getD (.error .crashed))

/-- The end of a program whose command line is not followed: asking for help is no failure. -/
def refusal : Arguments.Error → Result
  | .help => { exitCode := 0 }
  | _ => { exitCode := 2 }

/-! ## The program on a system -/

/-- What there is to read at a path. -/
inductive Reading
  | text (content : String)
  /-- There is no file. -/
  | noFile
  /-- There is a file, but no text can be read from it. -/
  | unreadable
  deriving DecidableEq, Repr

/-- What the program asks of the system it runs on, in the monad of the system. A path is a text,
absolute or relative to the working directory. -/
structure System (m : Type → Type) where
  /-- The working directory, unless it is gone. -/
  working? : m (Option Path)
  /-- Whether there is a file or directory at a path. -/
  isThere : String → m Bool
  /-- What there is to read at a path. -/
  look : String → m Reading
  /-- Makes the directories that a path leads through. Whether they are there then. -/
  makeDirectories : String → m Bool
  /-- Writes the second text into the file at a path. Whether that was done. -/
  write : String → String → m Bool

namespace System

variable {m : Type → Type} [Monad m] (system : System m) (environment : List Settings.Variable)

/-- The first file that is there, of those whose names are a path and an ending. -/
def readFirst (path : String) : List (String × Settings.Format) → m SettingsFile
  | [] => return .absent
  | (ending, format) :: endings => do
    match ← system.look (path ++ ending) with
    | .text text => return .file format text
    | .noFile => readFirst path endings
    | .unreadable => return .unavailable

/-- The settings file that is read. -/
def readSettings : m SettingsFile := do
  match ← system.working? with
  | some working =>
    system.readFirst (Files.absolute working (settingsPath environment)) settingsEndings
  | none => return .unavailable

/-- Writes the initial settings if there is nothing at the path of the settings file. Whether there
is something then. -/
def ensureSettings : m Bool := do
  if ← system.isThere (settingsPath environment) then
    return true
  else if ← system.makeDirectories (settingsDirectory environment) then
    system.write (settingsPath environment) Settings.initialFile
  else
    return false

/-- The settings file, written first if there is nothing at its path. -/
def openSettings : m SettingsFile := do
  if ← system.ensureSettings environment then
    system.readSettings environment
  else
    return .unavailable

/-- Runs the program: how it ends. The client to search with may depend on the settings. -/
def run (client : Settings → Search.Client) (args : List String) : m Result :=
  match Arguments.read args with
  | .error e => return refusal e
  | .ok a => do
    let base := baseSettings (← system.openSettings environment) environment
    return (action a base).perform (client (overridden base a))

end System

/-! ## The program among files -/

/-- Where the program runs. -/
structure World where
  /-- The working directory. -/
  working : Path
  files : Files
  environment : List Settings.Variable

/-- A tree of files as a system. Every file in it is a text. -/
def System.ofFiles (working : Path) : System (StateM Files) where
  working? files := (some working, files)
  isThere text files := ((files.resolve? working text).any files.isThere, files)
  look text files :=
    match (files.resolve? working text).bind files.textAt? with
    | some content => (.text content, files)
    | none => (.noFile, files)
  makeDirectories text files :=
    match files.makeDirectories? working text with
    | some files => (true, files)
    | none => (false, files)
  write text content files :=
    match (files.resolve? working text).filter (!files.isDirectory ·) with
    | some path => (true, files.write path content)
    | none => (false, files)

/-- The settings file, written first if there is nothing at its path, and the files then. -/
def openSettings (w : World) : SettingsFile × Files :=
  ((System.ofFiles w.working).openSettings w.environment).run w.files

/-- Runs the program: how it ends, and the files afterwards. -/
def run (w : World) (client : Search.Client) (args : List String) : Result × Files :=
  ((System.ofFiles w.working).run w.environment (fun _ => client) args).run w.files

/-- **A command line that is followed** ends as its action does, with the settings file opened. -/
theorem run_of_read {a : Arguments} {args : List String} (h : Arguments.read args = .ok a)
    (w : World) (client : Search.Client) :
    run w client args =
      ((action a (baseSettings (openSettings w).1 w.environment)).perform client,
        (openSettings w).2) := by
  rw [run, System.run, h]
  simp only [StateT.run_bind, StateT.run_pure]
  rfl

end DirectoryLookup.Program
