import DirectoryLookup.Search.Request
import DirectoryLookup.Text.CaseFold

/-!
# The directory protocol

How the results, entries and numbers of LDAP are taken by a directory client, and how it answers
while it has no connection.
-/

namespace DirectoryLookup.Ldap

open Search

/-! ## Results -/

/-- How a search ended, by its result code: success, the size limit, or a refusal. -/
def classify (code : UInt32) (text : String) : Completion :=
  if code = 0 then .complete
  else if code = 4 then .truncated
  else .failed (.rejected code text)

/-- What can go wrong in the exchange with a server. -/
inductive Error
  /-- The server answered with a result code. -/
  | result (code : UInt32) (text : String)
  | endOfStream
  | filterParsing
  | emptyUnixPath
  | portInUnixPath
  | addNoValues
  | unknownScheme (scheme : String)
  | adapterInit (reason : String)
  | invalidScope (scope : String)
  deriving DecidableEq, Repr

namespace Error

/-- What an error says of itself. -/
def message : Error → String
  | result _ text => text
  | endOfStream => "premature end of search stream"
  | filterParsing => "filter parse error"
  | emptyUnixPath => "empty Unix domain socket path"
  | portInUnixPath => "the port must be empty in the ldapi scheme"
  | addNoValues => "empty value set for Add"
  | unknownScheme scheme => "unknown LDAP URL scheme: " ++ scheme
  | adapterInit reason => "adapter init error: " ++ reason
  | invalidScope scope => "invalid scope string in LDAP URL: " ++ scope

/-- The error of a call that failed. -/
def clientError : Error → ClientError
  | result code text => .rejected code text
  | e => .protocol e.message

/-- How a search ended that broke off with an error. A result code counts as the server's own
verdict, so it need not be a failure. -/
def completion : Error → Completion
  | result code text => classify code text
  | e => .failed e.clientError

end Error

/-! ## Entries -/

/-- An entry as the server sends it: attributes with text values, and others whose values are not
text. Its attributes have no order. -/
structure ServerEntry where
  dn : String
  attributes : List (String × List String)
  binary : List (String × List (List UInt8)) := []

/-- The folded name of the one attribute is not after that of the other. -/
def nameLe (a b : String × List String) : Bool :=
  decide (Text.fold a.1 ≤ Text.fold b.1)

/-- The entry with its text attributes in the order of their folded names. -/
def ServerEntry.toEntry (e : ServerEntry) : Entry :=
  { dn := e.dn, attributes := e.attributes.mergeSort nameLe }

/-! ## Addresses and numbers -/

/-- The URL of a server. A host with a colon in it is an address that needs brackets, unless it
has them. -/
def url (host : String) (port : UInt16) : String :=
  let bare := host.toList
  if bare.contains ':' && bare.head? != some '[' then s!"ldap://[{host}]:{port}"
  else s!"ldap://{host}:{port}"

/-- The greatest limit that the protocol can express. -/
def limitMax : Nat :=
  Nat.pow 2 31 - 1

/-- A limit as the protocol expresses it: the nearest it can. -/
def clampLimit (value : UInt64) : Nat :=
  min value.toNat limitMax

/-- The number of a dereferencing policy. -/
def derefNumber : Deref → Nat
  | .never => 0
  | .inSearching => 1
  | .findingBase => 2
  | .always => 3

/-- The number of a scope. -/
def scopeNumber : Scope → Nat
  | .base => 0
  | .oneLevel => 1
  | .subtree => 2

/-! ## Without a connection -/

namespace Unconnected

/-- A search cannot be started. -/
def search : Except ClientError Unit :=
  .error .notConnected

/-- There is no next event; the search that was not started has failed. -/
def nextEvent : Completion :=
  .failed .notConnected

/-- Disconnecting has nothing to do and succeeds. -/
def disconnect : Except ClientError Unit :=
  .ok ()

end Unconnected

end DirectoryLookup.Ldap
