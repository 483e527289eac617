import TabPilot.Client.Connection
import TabPilot.Event.Registry
import TabPilot.Event.Waiters
import TabPilot.Script.Tree
import TabPilot.Scope.Store

set_option autoImplicit false

/-! # Tabs

A tab is a connection with the domains of the protocol on it. Domains that emit events hold
callbacks; the one called `Browser` only takes calls.
-/

namespace TabPilot

/-! ## Callbacks -/

/-- What a script does on an event: the body of a handler, and the scope it was registered in. -/
structure Reaction where
  isolated : Bool
  body : List Statement
  scope : ScopeId
  source : String
  filename : Option String

inductive Callback
  /-- Writes the messages of the page's console to the log. -/
  | consoleLogger
  /-- Runs the body of a handler. -/
  | reaction (r : Reaction)
  /-- Notes that the event was seen; it may keep later callbacks from seeing it. -/
  | probe (tag : String) (stops : Bool)

/-- The mark before a console message of some level. -/
def consoleMark : String → String
  | "info" => "II"
  | "warning" => "WW"
  | "error" => "EE"
  | "debug" => "DD"
  | _ => "--"

/-- The log entry for a message of the page's console, unless it is blank. -/
def consoleLine? (e : Event) : Option LogEntry :=
  let level := ((e.get? "message.level").bind Inbound.text?).getD "log"
  let text := Text.trim (((e.get? "message.text").bind Inbound.text?).getD "")
  if text.isEmpty then none else some ⟨.info, s!"[{consoleMark level}] {text}"⟩

/-! ## Domains -/

structure Domain where
  name : String
  events : Option (Registry Callback)

def qualifiedMethod (domain method : String) : String :=
  if method.toList.contains '.' then method else domain ++ "." ++ method

def eventDomains : List String :=
  ["Console", "DOM", "Emulation", "Input", "Network", "Overlay", "Page", "Runtime", "Target"]

def callOnlyDomains : List String := ["Browser"]

def standardDomains : List Domain :=
  callOnlyDomains.map (fun name => ⟨name, none⟩) ++
    eventDomains.map fun name => ⟨name, some (Registry.empty name)⟩

/-! ## Tabs -/

structure Tab where
  id : String
  url : String
  connection : Connection
  domains : List Domain
  waiters : Waiters

namespace Tab

def domainNames (t : Tab) : List String := t.domains.map Domain.name

def domain? (t : Tab) (name : String) : Option Domain := t.domains.find? fun d => d.name = name

def registry? (t : Tab) (name : String) : Option (Registry Callback) :=
  (t.domain? name).bind Domain.events

def setRegistry (t : Tab) (r : Registry Callback) : Tab :=
  { t with domains := t.domains.map fun d => if d.name = r.domain then { d with events := some r }
    else d }

def domain (t : Tab) (name : String) : Except Error Domain :=
  match t.domain? name with
  | some d => .ok d
  | none => .error (.unknownDomain name)

def on (t : Tab) (name : String) (callback : Callback) : Except Error (Tab × HandlerId) :=
  match Event.splitName name.toList with
  | none =>
      .error (.invalidArgument s!"Event name '{name}' must be qualified with its domain")
  | some (prefixChars, _) =>
      let domainName := String.ofList prefixChars
      match t.domain domainName with
      | .error e => .error e
      | .ok d =>
          match d.events with
          | none => .error (.invalidArgument s!"Domain {domainName} does not emit events")
          | some r => (r.on name callback).map fun (r, id) => (t.setRegistry r, id)

/-- Takes the callback of an id away, and says whether there was one. -/
def remove (t : Tab) (id : HandlerId) : Tab × Bool :=
  match t.registry? id.domain with
  | some r => (t.setRegistry (r.remove id), r.holds id)
  | none => (t, false)

/-- Attaches to a tab. The console logger is the first callback, if it is wanted. -/
def attach (id url : String) (replyTimeout : Duration) (logsConsole : Bool) (now : Instant) : Tab :=
  let t : Tab := ⟨id, url, Connection.start replyTimeout, standardDomains, Waiters.start now⟩
  if logsConsole then
    match t.on "Console.messageAdded" .consoleLogger with
    | .ok (t, _) => t
    | .error _ => t
  else t

end Tab

end TabPilot
