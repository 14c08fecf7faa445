/-!
# Directory entries
-/

namespace DirectoryLookup

/-- An entry as a directory delivers it: its distinguished name, and attributes with their values
in the order received. The same attribute name may come more than once. -/
structure Entry where
  dn : String
  attributes : List (String × List String)
  deriving DecidableEq, Repr, Inhabited

end DirectoryLookup
