import DirectoryLookup.Filter.Basic
import DirectoryLookup.Search.Session
import DirectoryLookup.Settings.Basic

/-!
# Searchers

A searcher looks people up with fixed settings and a fixed registry, any number of times. Each
search has a session and a client of its own.
-/

namespace DirectoryLookup.Search

/-- Settings and a registry to search with. -/
structure Searcher where
  settings : Settings
  registry : Registry

namespace Searcher

/-- A searcher with the registry that the settings call for. -/
def ofSettings (settings : Settings) : Except Failure Searcher :=
  (Searcher.mk settings) <$> settings.registry

/-- The text of the filter that a search for `query` sends. Should it be empty, every entry is
asked for. -/
def compile (s : Searcher) (query : Option Expression) : String :=
  let filter := Filter.compile s.registry s.settings.escaping query
  if filter.isEmpty then String.ofList (Filter.everything.render .verbatim) else filter

/-- The request of a search for at most `limit` people. -/
def request (s : Searcher) (query : Option Expression) (limit : UInt32) : Request :=
  { base := s.settings.searchBase
    scope := .subtree
    filter := s.compile query
    attributes := s.registry.attributeNames
    constraints := s.settings.constraints limit }

/-- A new session for a search. It has failed from the start, before any call, if the settings
lack something. -/
def start (s : Searcher) (query : Option Expression) (limit : UInt32) (client : Client) :
    Session :=
  { plan :=
      { host := s.settings.host
        port := s.settings.port
        request := s.request query limit
        registry := s.registry }
    client := client
    phase := match s.settings.validate with
      | .error failure => .finished (.error failure)
      | .ok () => .ready
    calls := [] }

/-- A search from its first call to its last. -/
def search (s : Searcher) (query : Option Expression) (limit : UInt32) (client : Client) :
    Session :=
  (s.start query limit client).run

/-- **The filter sent is that of the query**: it is never empty. -/
theorem compile_eq (s : Searcher) (query : Option Expression) :
    s.compile query = Filter.compile s.registry s.settings.escaping query := by
  have hfilter := Filter.compile_ne_empty s.registry s.settings.escaping query
  simp [compile, hfilter]

end Searcher

end DirectoryLookup.Search
