import DirectoryLookup.ClientError
import DirectoryLookup.Entry

/-!
# Search requests and answers

What a search sends to a directory client, and what comes back.
-/

namespace DirectoryLookup.Search

/-- When the server follows alias entries. -/
inductive Deref
  | never
  | inSearching
  | findingBase
  | always
  deriving DecidableEq, Repr

/-- How far below its base a search reaches. -/
inductive Scope
  | base
  | oneLevel
  | subtree
  deriving DecidableEq, Repr

/-- The limits on a single search. -/
structure Constraints where
  /-- The greatest number of entries; zero for no limit. -/
  sizeLimit : UInt32
  /-- The longest time in seconds; zero for no limit. -/
  timeLimit : UInt64
  deref : Deref
  /-- The number of entries fetched at a time. -/
  pageSize : UInt32
  deriving DecidableEq, Repr

/-- Everything a client needs for a search. -/
structure Request where
  base : String
  scope : Scope
  filter : String
  /-- The names of the attributes wanted. -/
  attributes : List String
  constraints : Constraints
  deriving DecidableEq, Repr

/-- How a search ended. -/
inductive Completion
  /-- Every match was delivered. -/
  | complete
  /-- There were more matches than the size limit allows; those delivered are good. -/
  | truncated
  | failed (error : ClientError)
  deriving DecidableEq, Repr

end DirectoryLookup.Search
