import TabPilot.Rehearsal.Basic
import TabPilot.Script.Grammar.Statement

set_option autoImplicit false

/-! # Sessions

A session is a rehearsal that goes from cue to cue. `Session.cue` takes the effects of a cue
that come at once and sets the activity that it starts; a cue that needs no time starts an
activity that has already ended. Between two cues the rehearsal goes on until the activity has
ended.
-/

namespace TabPilot

/-- A session: the rehearsal, the scopes of the scripts so far, and the probes by their tags. -/
structure Session where
  rehearsal : Rehearsal
  scopes : List ScopeId
  probes : List (String × HandlerId)

structure Screenplay where
  source : String
  /-- The name of the file that the source comes from, if it comes from one. -/
  filename : Option String
  options : RunOptions

def Screenplay.read (p : Screenplay) : Except Fault Script :=
  (Script.parse p.source).map fun script => { script with filename := p.filename }

inductive Stage
  /-- In a new scope with these variables. -/
  | fresh (vars : Record Value)
  /-- In the scope of an earlier script. -/
  | again (index : Nat)

inductive Cue
  | script (p : Screenplay) (stage : Stage)
  /-- Calls a method and waits for the reply. -/
  | call (tab : TabId) (method : String) (params : Value) (timeout : Option Duration)
  /-- Calls methods at the same time and waits for all replies. -/
  | callAll (tab : TabId) (calls : List (String × Value))
  /-- Sends a request that expects no reply. -/
  | send (tab : TabId) (method : String) (params : Value)
  /-- Calls a method by way of a domain. -/
  | domainCall (tab : TabId) (domain method : String) (params : Value)
  | enable (tab : TabId) (domain : String)
  /-- Enables all domains that emit events. -/
  | enableAll (tab : TabId)
  | waitFor (tab : TabId) (name : String) (criteria : List (String × Criterion))
      (timeout : Duration)
  /-- Waits until none of these events has come for some time. -/
  | waitForQuiet (tab : TabId) (idle : Duration) (names : List String) (timeout poll : Duration)
  /-- Registers a probe. -/
  | probe (tab : TabId) (name tag : String) (stops : Bool)
  /-- Takes the latest probe of a tag away. -/
  | unprobe (tab : TabId) (tag : String)
  /-- The debugger sends a message of its own. -/
  | push (tab : TabId) (u : Utterance)
  /-- Lets time pass. -/
  | rest (d : Duration)
  | hangUp (tab : TabId)
  | stop (tab : TabId)
  /-- The browser closes. -/
  | close
  | setDefaultTab (id : String)

namespace Session

/-- A session before its first cue, with a tab for each id. The first is the default tab. -/
def start (catalogue : Catalogue) (ids : List String) (replyTimeout : Duration)
    (logsConsole : Bool) (rules : List (String × RulePlan)) (agenda : List Sending) : Session :=
  let tabs := ids.map fun id => Tab.attach id "about:blank" replyTimeout logsConsole 0
  let browser : Browser := ⟨List.range tabs.length, ids.head?⟩
  ⟨⟨catalogue, { World.empty with tabs, browser := some browser },
    ids.map fun _ => Debugger.start rules, agenda, [], .finished .stopped, true, []⟩, [], []⟩

/-- Sets the activity, in the world as it is now; it has the first turn. -/
def setOut (s : Session) (begun : World × Activity) : Session :=
  let (world, activity) := begun
  { s with rehearsal := { s.rehearsal with world, activity, acting := true } }

def operate (s : Session) (begun : World × Progress) : Session := s.setOut (Activity.one begun)

def settle (s : Session) (w : World) (r : Except Error Value) : Session :=
  s.operate (w, .finished r)

/-- Ends a cue at once with another rehearsal. -/
def become (s : Session) (r : Rehearsal) : Session :=
  { s with rehearsal := { r with activity := .finished (.values [.ok .null]) } }

def scopeOf (s : Session) (stage : Stage) : World × ScopeId :=
  let w := s.rehearsal.world
  match stage with
  | .fresh vars => w.changeStore fun st => st.addRoot vars
  | .again index =>
      match s.scopes[index]? with
      | some scope => (w, scope)
      | none => w.changeStore fun st => st.addRoot Record.empty

def beginScript (s : Session) (p : Screenplay) (stage : Stage) : Session :=
  let (w, scope) := s.scopeOf stage
  let s := { s with scopes := s.scopes ++ [scope] }
  match p.read with
  | .error fault => s.setOut (w, .finished (.misread fault))
  | .ok script =>
      match w.beginScript script scope p.options with
      | (w, .error e) => s.setOut (w, .finished (.script (.error e)))
      | (w, .ok run) => s.setOut (w, .script run)

/-- Writes a request that expects no reply. -/
def sendOnly (s : Session) (w : World) (t : TabId) (method : String) (params : Value) : Session :=
  match w.tab? t with
  | none => s.settle w (.error .connectionClosed)
  | some tab =>
      let (c, sent) := tab.connection.send method params false
      s.settle (w.modifyConnection t fun _ => c) (sent.map fun _ => .bool true)

def callDomain (w : World) (t : TabId) (domain method : String) (params : Value) :
    World × Progress :=
  match w.tab? t with
  | none => (w, .error .connectionClosed)
  | some tab =>
      match tab.domain domain with
      | .error e => (w, .error e)
      | .ok d => w.call t (qualifiedMethod d.name method) params none .result

def callAll (w : World) (t : TabId) : List (String × Value) → World × List Progress
  | [] => (w, [])
  | (method, params) :: rest =>
      let (w, p) := w.call t method params none .result
      let (w, ps) := callAll w t rest
      (w, p :: ps)

/-- Registers a probe; the result is the text of its id. -/
def register (s : Session) (w : World) (t : TabId) (name tag : String) (stops : Bool) : Session :=
  match w.tab? t with
  | none => s.settle w (.error .connectionClosed)
  | some tab =>
      match tab.on name (.probe tag stops) with
      | .error e => s.settle w (.error e)
      | .ok (tab, id) =>
          { s with probes := (tag, id) :: s.probes }.settle (w.modifyTab t fun _ => tab)
            (.ok (.string id.text))

/-- Takes a probe away; the result says whether it was there, and is null if its tag is not
known. -/
def unregister (s : Session) (w : World) (t : TabId) (tag : String) : Session :=
  match s.probes.lookup tag, w.tab? t with
  | some id, some tab =>
      let (tab, removed) := tab.remove id
      s.settle (w.modifyTab t fun _ => tab) (.ok (.bool removed))
  | _, _ => s.settle w (.ok .null)

def cue (s : Session) (c : Cue) : Session :=
  let r := s.rehearsal
  let w := r.world
  match c with
  | .script p stage => s.beginScript p stage
  | .call t method params timeout => s.operate (w.call t method params timeout .result)
  | .callAll t calls =>
      let (w, ps) := callAll w t calls
      s.setOut (w, .operations ps)
  | .send t method params => s.sendOnly w t method params
  | .domainCall t domain method params => s.operate (callDomain w t domain method params)
  | .enable t domain => s.operate (w.setUp [.enable t domain])
  | .enableAll t =>
      s.operate (w.setUp (((w.tab? t).map Tab.domainNames).getD [] |>.map (.enable t)))
  | .waitFor t name criteria timeout =>
      s.operate (Core.beginWait w t (Wait.forEvent name criteria timeout w.now))
  | .waitForQuiet t idle names timeout poll =>
      s.operate (Core.beginWait w t (Wait.forQuiet ⟨idle, names, timeout, poll, w.now⟩))
  | .probe t name tag stops => s.register w t name tag stops
  | .unprobe t tag => s.unregister w t tag
  | .push t u => s.become (r.arrive t u)
  | .rest d => s.operate (w, .waiting (.pause (w.now + d) .null))
  | .hangUp t => s.become (r.hangUp t)
  | .stop t => s.setOut (w, .stopping [t] .asking)
  | .close => { s with rehearsal := r.close }
  | .setDefaultTab id =>
      match w.setDefaultTab id with
      | .ok w => s.settle w (.ok .null)
      | .error e => s.settle w (.error e)

end Session

end TabPilot
