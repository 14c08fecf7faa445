import DirectoryLookup.Ini.Document
import DirectoryLookup.Json5.Document
import DirectoryLookup.Ron.Document
import DirectoryLookup.Settings.Basic
import DirectoryLookup.Settings.Environment
import DirectoryLookup.Settings.OfJson
import DirectoryLookup.Settings.OfYaml
import DirectoryLookup.Text.ByteOrder
import DirectoryLookup.Toml.Document

/-!
# Loading settings

Settings are layered: what the environment sets stands over what the file sets, and that over the
defaults. Layers are laid over one another key by key, and only the result is converted; one value
that cannot be converted to what its setting needs makes loading fail. A setting that the layers
leave out, since a list or a smaller table has taken the place of its section, keeps its default.

A key at the top of a file may be the path of a setting; there it stands for the setting at the
end of the path. The entries at the top are laid one after the other, as they come in the file. This
order counts only where several of their keys lead into one section.
-/

namespace DirectoryLookup.Settings

/-! ## Files -/

/-- The formats of a settings file. -/
inductive Format
  | toml
  | json
  | yaml
  | ini
  | ron
  | json5
  deriving DecidableEq, Repr

/-- The settings in a file. -/
def readFile? (format : Format) (text : String) : Option Table :=
  let s := Text.dropMark text.toList
  match format with
  | .toml => Toml.settings? s
  | .json => ofJson? s
  | .yaml => ofYaml? s
  | .ini => Ini.settings? s
  | .ron => Ron.settings? s
  | .json5 => Json5.settings? s

/-- Lays one entry at the top of a file over the settings. A key that is no path is for a setting
that does not exist. -/
def layEntry (root : Raw) (entry : String × Raw) : Raw :=
  match pathOf? entry.1.toList with
  | some path => layAt (some root) path entry.2
  | none => root

/-! ## From raw values to settings -/

/-- The entries of a section, whose settings have these names. A list gives their values in order;
a section that is missing sets nothing. -/
def sectionOf? (names : List String) : Option Raw → Option Table
  | none => some []
  | some (.table entries) => some entries
  | some (.list items) => some (names.zip items)
  | some _ => none

/-- The value of a setting in a section: converted if it is set, and the default if not. -/
def setting? {α : Type} (entries : Table) (key : String) (convert : Raw → Option α) (default : α) :
    Option α :=
  match Entries.get? entries key with
  | none => some default
  | some value => convert value

/-- The alias declarations of the schema section, each a text. -/
def schemaOf? : Option Raw → Option (List (String × String))
  | none => some []
  | some (.table entries) => entries.mapM fun e => e.2.text?.map (e.1, ·)
  | some _ => none

/-- The raw table that makes given settings. -/
def toTable (s : Settings) : Table :=
  [("directory", .table
      [("host", .text s.host), ("port", .integer s.port.toNat),
       ("search_base", .text s.searchBase)]),
   ("search", .table
      [("size_limit", .integer s.sizeLimit.toNat), ("time_limit_secs", .integer s.timeLimit.toNat),
       ("page_size", .integer s.pageSize.toNat), ("escape_values", .bool s.escapeValues)]),
   ("schema", .table (s.schema.map fun e => (e.1, .text e.2)))]

/-- The settings that a raw table makes. -/
def ofTable? (root : Table) : Option Settings := do
  let d : Settings := {}
  let directory ← sectionOf? ["host", "port", "search_base"] (Entries.get? root "directory")
  let search ← sectionOf? ["size_limit", "time_limit_secs", "page_size", "escape_values"]
    (Entries.get? root "search")
  return {
    host := ← setting? directory "host" Raw.text? d.host
    port := ← setting? directory "port" Raw.uint16? d.port
    searchBase := ← setting? directory "search_base" Raw.text? d.searchBase
    sizeLimit := ← setting? search "size_limit" Raw.uint32? d.sizeLimit
    timeLimit := ← setting? search "time_limit_secs" Raw.uint64? d.timeLimit
    pageSize := ← setting? search "page_size" Raw.uint32? d.pageSize
    escapeValues := ← setting? search "escape_values" Raw.bool? d.escapeValues
    schema := ← schemaOf? (Entries.get? root "schema") }

/-- The settings that a table from a file and variables of the environment make together. -/
def layered? (file : Table) (environment : List Variable) : Option Settings :=
  let root := environment.foldl layVariable (file.foldl layEntry (.table (toTable {})))
  ofTable? (entriesOf (some root))

/-- Loads settings from a file, which may be missing, and the environment. -/
def load? (file : Option (Format × String)) (environment : List Variable) : Option Settings :=
  match file with
  | none => layered? [] environment
  | some (format, text) => (readFile? format text).bind (layered? · environment)

/-! ## The file to start from -/

/-- The settings file that is written where there is none: every setting with its default. -/
def initialFile : String :=
"[directory]
host        = \"\"
port        = 389
search_base = \"\"

[search]
size_limit      = 50
time_limit_secs = 30
page_size       = 20
escape_values   = false

# Per-field alias overrides, e.g.
# email = \"mail; rfc822Mailbox\"
[schema]
"

end DirectoryLookup.Settings
