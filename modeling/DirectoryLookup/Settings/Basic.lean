import DirectoryLookup.Filter.Escape
import DirectoryLookup.Registry
import DirectoryLookup.Search.Request
import DirectoryLookup.Text.Blank

/-!
# Settings

The settings of a lookup: which server to ask and where to start, the limits of a search, how
values go into filters, and which attributes the fields stand for.
-/

namespace DirectoryLookup

/-- What can be configured, with its default values. -/
structure Settings where
  /-- The server's host name or address. -/
  host : String := ""
  port : UInt16 := 389
  /-- The distinguished name below which people are looked for. -/
  searchBase : String := ""
  sizeLimit : UInt32 := 50
  /-- In seconds. -/
  timeLimit : UInt64 := 30
  pageSize : UInt32 := 20
  escapeValues : Bool := false
  /-- Alias declarations by the name of the field, one for a name. -/
  schema : List (String × String) := []
  deriving DecidableEq, Repr, Inhabited

namespace Settings

/-- Checks what no search can do without; the first setting at fault decides the error. -/
def validate (s : Settings) : Except Failure Unit :=
  if Text.isAllBlank s.host then .error (.configuration "directory.host")
  else if s.port = 0 then .error (.configuration "directory.port")
  else if Text.isAllBlank s.searchBase then .error (.configuration "directory.search_base")
  else .ok ()

/-- The constraints of a search for at most `limit` people. Aliases are never followed. -/
def constraints (s : Settings) (limit : UInt32) : Search.Constraints :=
  { sizeLimit := limit, timeLimit := s.timeLimit, deref := .never, pageSize := s.pageSize }

/-- How values go into filters. -/
def escaping (s : Settings) : Filter.Escaping :=
  if s.escapeValues then .escaped else .verbatim

/-- The registry of a person with the configured declarations. -/
def registry (s : Settings) : Except Failure Registry :=
  Registry.withOverrides s.schema

end Settings

end DirectoryLookup
