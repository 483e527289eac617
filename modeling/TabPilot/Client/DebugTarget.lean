import TabPilot.Client.Address.Request
import TabPilot.Client.Address.Url
import TabPilot.Error

set_option autoImplicit false

/-! # Targets

A target is an entry of the debugger's list of what can be debugged. `DebugTarget.refusal?` says
why a target cannot even be tried to connect to.
-/

namespace TabPilot

/-- An entry of the debugger's list. -/
structure DebugTarget where
  id : String
  url : String
  type : String
  title : String
  address : Option String
  deriving Repr, DecidableEq

namespace DebugTarget

/-! ## Reading and writing -/

def notTargets : Error := .json "not a list of targets"

/-- The members that a target has, in the order in which a list gives them. -/
def memberNames : List String := ["id", "url", "type", "title", "webSocketDebuggerUrl"]

def textOr (default : Option String) (v : Option Value) : Except Error String :=
  match v, default with
  | some (.string s), _ => .ok s
  | none, some s => .ok s
  | _, _ => .error notTargets

/-- The target with the given members; each may be given once. -/
def ofMembers (members : List (String × Value)) : Except Error DebugTarget := do
  if memberNames.any fun name => 1 < (members.filter fun m => m.1 = name).length then
    throw notTargets
  let id ← textOr none (members.lookup "id")
  let url ← textOr (some "") (members.lookup "url")
  let type ← textOr (some "page") (members.lookup "type")
  let title ← textOr (some "") (members.lookup "title")
  let address ←
    match members.lookup "webSocketDebuggerUrl" with
    | none | some .null => pure none
    | some (.string s) => pure (some s)
    | some _ => throw notTargets
  return ⟨id, url, type, title, address⟩

/-- Reads a target: an object, or a list of its members' values in order. -/
def read (fuel : Nat) (cs : List Char) : Except Error (DebugTarget × List Char) :=
  let members : Wire.Parsed (List (String × Value)) :=
    match Wire.skipBlanks cs with
    | '\x7b' :: rest =>
        match Wire.skipBlanks rest with
        | '\x7d' :: rest => .ok ([], rest)
        | _ => Wire.members fuel fuel rest
    | '[' :: rest =>
        (Wire.elements fuel fuel rest).bind fun (vs, rest) =>
          if vs.length ≤ memberNames.length then .ok (memberNames.zip vs, rest)
          else .error .syntaxError
    | _ => .error .syntaxError
  match members with
  | .error _ => .error notTargets
  | .ok (members, rest) => (ofMembers members).map fun t => (t, rest)

def readRest (fuel : Nat) (cs : List Char) : Except Error (List DebugTarget × List Char) :=
  match fuel with
  | 0 => .error notTargets
  | fuel + 1 =>
      match read fuel cs with
      | .error e => .error e
      | .ok (t, rest) =>
          match Wire.skipBlanks rest with
          | ',' :: rest => (readRest fuel rest).map fun (ts, rest) => (t :: ts, rest)
          | ']' :: rest => .ok ([t], rest)
          | _ => .error notTargets

def readList (text : String) : Except Error (List DebugTarget) :=
  let cs := text.toList
  let read : Except Error (List DebugTarget × List Char) :=
    match Wire.skipBlanks cs with
    | '[' :: rest =>
        match Wire.skipBlanks rest with
        | ']' :: rest => .ok ([], rest)
        | _ => readRest (2 * cs.length + 2) rest
    | _ => .error notTargets
  match read with
  | .error e => .error e
  | .ok (targets, rest) =>
      if (Wire.skipBlanks rest).isEmpty then .ok targets else .error notTargets

def toValue (t : DebugTarget) : Value :=
  .ofMembers ([("id", .string t.id), ("url", .string t.url), ("type", .string t.type),
    ("title", .string t.title)] ++
      (t.address.map fun a => ("webSocketDebuggerUrl", Value.string a)).toList)

def isPage (t : DebugTarget) : Bool := t.type = "page"

/-! ## Connecting -/

def headerRefusal? (headers : List (String × String)) : Option Error :=
  headers.findSome? fun (name, value) =>
    if !Address.isHeaderName name then
      some (.connectionFailed "Invalid header name: invalid HTTP header name")
    else if !Address.isHeaderValue value then
      some (.connectionFailed "Invalid header value: failed to parse header value")
    else none

def addressRefusal? (address : String) (headers : List (String × String)) : Option Error :=
  match Address.schemeOf address with
  | .error e => some (.connectionFailed s!"Invalid URL '{address}': {e.message}")
  | .ok scheme =>
      if scheme ≠ "ws" && scheme ≠ "wss" then
        some (.connectionFailed s!"Debugger URL must use ws:// or wss://, got '{address}'")
      else
        match Address.RequestTarget.ofText address with
        | .error e =>
            some (.connectionFailed s!"Failed to build request: HTTP format error: {e.message}")
        | .ok target =>
            match headerRefusal? headers, target.port? with
            | some e, _ => some e
            | none, some _ => none
            | none, none =>
                some (.connectionFailed
                  "WebSocket connection failed: URL error: URL scheme not supported")

def refusal? (t : DebugTarget) (headers : List (String × String)) : Option Error :=
  match t.address with
  | some address => addressRefusal? address headers
  | none =>
      some (.invalidArgument s!"Cannot operate on tab {t.id} without a webSocketDebuggerUrl")

/-- The targets of a list that are to be attached to: the pages that have an address. -/
def attachable (targets : List DebugTarget) : List DebugTarget :=
  targets.filter fun t => t.isPage && t.address.isSome

def attachRefusal? (targets : List DebugTarget) (headers : List (String × String)) : Option Error :=
  (attachable targets).findSome? fun t =>
    (t.refusal? headers).map fun e => .context s!"Attaching to tab {t.id}" e

end DebugTarget

end TabPilot
