import TabPilot.Script.Fault

set_option autoImplicit false

/-! # Errors of the client

Everything that can go wrong when talking to a browser or running a script.
-/

namespace TabPilot

inductive Error
  /-- No connection to the debugger could be made. -/
  | connectionFailed (reason : String)
  /-- The transport broke. -/
  | transport (reason : String)
  /-- The debugger answered a request with an error. -/
  | protocol (code : Int) (message : String)
  /-- A message from the debugger could not be understood. -/
  | malformed (reason : String)
  /-- A file could not be read. -/
  | io (reason : String)
  /-- A text was not the JSON that was asked for. -/
  | json (reason : String)
  /-- A reply, an event or quiet did not come in time. -/
  | timeout (reason : String)
  /-- The connection was closed meanwhile. -/
  | connectionClosed
  /-- There is no domain of this name. -/
  | unknownDomain (name : String)
  /-- An argument was not acceptable. -/
  | invalidArgument (reason : String)
  /-- A script failed. -/
  | script (fault : Fault)
  /-- An error, with what was being done. -/
  | context (doing : String) (cause : Error)
  deriving Repr, DecidableEq

namespace Error

def message : Error → String
  | .connectionFailed reason => "Failed to connect to remote debugger: " ++ reason
  | .transport reason => "Transport error: " ++ reason
  | .protocol code text => s!"Protocol Error {code}: {text}"
  | .malformed reason => "Malformed protocol message: " ++ reason
  | .io reason => "I/O error: " ++ reason
  | .json reason => "JSON error: " ++ reason
  | .timeout reason => "Timeout: " ++ reason
  | .connectionClosed => "Connection closed"
  | .unknownDomain name => s!"No such instance for domain '{name}'"
  | .invalidArgument reason => "Invalid argument: " ++ reason
  | .script fault => fault.render
  | .context doing cause => doing ++ ": " ++ cause.message

def isTimeout : Error → Bool
  | .timeout _ => true
  | .context _ cause => cause.isTimeout
  | _ => false

def fault? : Error → Option Fault
  | .script fault => some fault
  | .context _ cause => cause.fault?
  | _ => none

end Error

end TabPilot
