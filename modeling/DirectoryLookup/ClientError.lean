/-!
# Failures of a directory client
-/

namespace DirectoryLookup

/-- Why a directory client could not do what it was asked to. -/
inductive ClientError
  /-- No connection to the server could be made. -/
  | connect (host : String) (port : UInt16) (reason : String)
  /-- The server answered with a result code other than success. -/
  | rejected (code : UInt32) (message : String)
  /-- The exchange with the server went wrong below the level of result codes. -/
  | protocol (message : String)
  /-- The client was used before it was connected, or after it was disconnected. -/
  | notConnected
  deriving DecidableEq, Repr

namespace ClientError

/-- The text that reports the failure. -/
def message : ClientError → String
  | connect host port reason => s!"cannot connect to {host}:{port}: {reason}"
  | rejected code message => s!"server rejected the operation (code {code}): {message}"
  | protocol message => s!"protocol error: {message}"
  | notConnected => "client is not connected"

end ClientError

end DirectoryLookup
