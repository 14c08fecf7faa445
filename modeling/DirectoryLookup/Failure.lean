import DirectoryLookup.ClientError

/-!
# Failures of a lookup
-/

namespace DirectoryLookup

/-- Why a lookup gives no people. -/
inductive Failure
  /-- The setting with this name is missing or cannot be used. -/
  | configuration (key : String)
  /-- The text given as a query expression is not one. -/
  | unsupportedFilter
  /-- The directory client failed. -/
  | search (error : ClientError)
  /-- The search broke off in the middle and left no result. -/
  | crashed
  deriving DecidableEq, Repr

namespace Failure

/-- The text that reports the failure. For an unusable expression and for a crash this is the
fixed part of the report; what follows it is free. -/
def message : Failure → String
  | configuration key => "configuration error: `" ++ key ++ "` is missing or invalid"
  | unsupportedFilter => "unsupported filter: "
  | search error => "search failed: " ++ error.message
  | crashed => "search task did not complete: "

end Failure

end DirectoryLookup
