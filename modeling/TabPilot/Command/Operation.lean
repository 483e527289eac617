import TabPilot.Command.Invocation
import TabPilot.Event.Wait
import TabPilot.World

set_option autoImplicit false

/-! # What commands wait for

A command ends at once or waits: for an instant, for an event or quiet in a tab, or for the reply
to a call. What it does after a reply is data, so that a command that waits is a value.
`Operation.resume?` takes such a value one step on when there is something to do.
-/

namespace TabPilot

/-- A request that was written to a debugger and has no outcome yet. -/
structure Call where
  tab : TabId
  id : Nat
  method : String
  since : Instant
  timeout : Duration

inductive SetupStep
  /-- Enables the events of a domain. -/
  | enable (tab : TabId) (domain : String)
  /-- Enables the events of a domain whose name is given in any letter case. -/
  | find (tab : TabId) (wanted : String)
  /-- Makes the default tab name itself so to servers. -/
  | userAgent (agent : Value)
  /-- Makes the default tab send headers along. -/
  | headers (headers : Value)

inductive AfterReply
  /-- The reply is the result. -/
  | result
  /-- There is no result. -/
  | done
  /-- A page was asked for; its load event may be waited for. -/
  | navigation (url : String) (load : Option PendingWait) (timeout : Duration)
  /-- Setting up goes on. An error tells what was being done. -/
  | setup (doing : Option String) (rest : List SetupStep)

inductive Operation
  /-- An instant; the result is known. -/
  | pause (stop : Instant) (result : Value)
  /-- An event or quiet in a tab; the result is what the wait gives, or the value given. -/
  | wait (tab : TabId) (w : Wait) (result : Option Value)
  /-- The reply to a call. -/
  | reply (call : Call) (next : AfterReply)

/-- How far a command has come. -/
inductive Progress
  | finished (r : Except Error Value)
  | waiting (op : Operation)

namespace Progress

def ok (v : Value) : Progress := .finished (.ok v)

def error (e : Error) : Progress := .finished (.error e)

end Progress

/-- An error, with what was being done if that is known. -/
def Error.during (doing : Option String) (e : Error) : Error :=
  match doing with
  | some what => .context what e
  | none => e

/-! ## Calls -/

namespace World

def withdraw (w : World) (tab : TabId) (p : Option PendingWait) : World :=
  match p with
  | some p => w.modifyWaiters tab fun waiters => waiters.withdraw p
  | none => w

def failCall (w : World) (tab : TabId) (next : AfterReply) (e : Error) : World × Progress :=
  match next with
  | .navigation _ load _ => (w.withdraw tab load, .error e)
  | .setup doing _ => (w, .error (e.during doing))
  | .result | .done => (w, .error e)

/-- Writes a request to the debugger of a tab and waits for the reply, for the tab's usual time
unless another is given. -/
def call (w : World) (tab : TabId) (method : String) (params : Value) (timeout : Option Duration)
    (next : AfterReply) : World × Progress :=
  match w.tab? tab with
  | none => w.failCall tab next .connectionClosed
  | some t =>
      match t.connection.send method params true with
      | (connection, .ok id) =>
          (w.modifyConnection tab fun _ => connection,
            .waiting (.reply
              ⟨tab, id, method, w.now, timeout.getD connection.replyTimeout⟩ next))
      | (connection, .error e) =>
          (w.modifyConnection tab fun _ => connection).failCall tab next e

/-! ## Setting up -/

/-- The name of the domain in a tab that is spelled so but for letter case. -/
def findDomain? (w : World) (tab : TabId) (wanted : String) : Option String :=
  (w.tab? tab).bind fun t =>
    t.domainNames.find? fun name => Decimal.asciiLower name = Decimal.asciiLower wanted

/-- Enables the events of a domain and goes on; domains without events are left as they are. -/
def enable (w : World) (tab : TabId) (name : String) (rest : List SetupStep)
    (goOn : World → World × Progress) : World × Progress :=
  match (w.tab? tab).bind fun t => t.domain? name with
  | none => (w, .error (.unknownDomain name))
  | some d =>
      match d.events with
      | none => goOn w
      | some _ =>
          w.call tab (qualifiedMethod name "enable") .null none
            (.setup (some (name ++ ".enable")) rest)

/-- Sets up step by step, up to the first that waits for a reply. -/
def setUp (w : World) : List SetupStep → World × Progress
  | [] => (w, .ok .null)
  | .enable tab name :: rest => w.enable tab name rest fun w => w.setUp rest
  | .find tab wanted :: rest =>
      match w.findDomain? tab wanted with
      | none => (w, .error (.unknownDomain wanted))
      | some name =>
          (w.note ⟨.info, "Enabling events for domain \"" ++ name ++ "\""⟩).enable tab name rest
            fun w => w.setUp rest
  | .userAgent agent :: rest =>
      match agent, w.defaultTab with
      | .string _, .ok tab =>
          w.call tab "Network.setUserAgentOverride" (.ofMembers [("userAgent", agent)]) none
            (.setup none rest)
      | .string _, .error e => (w, .error e)
      | _, _ =>
          (w, .error (.invalidArgument
            s!"option 'user_agent' must be a string, got {agent.json}"))
  | .headers headers :: rest =>
      match w.defaultTab with
      | .ok tab =>
          w.call tab "Network.setExtraHTTPHeaders" (.ofMembers [("headers", headers)]) none
            (.setup none rest)
      | .error e => (w, .error e)

/-! ## Going on -/

/-- The text of the error that a reply to a navigation holds, if it holds one. -/
def navigationError? (result : Value) : Option String :=
  match result with
  | .object members => (members.get? "errorText").bind Inbound.text?
  | _ => none

def afterReply (w : World) (tab : TabId) (next : AfterReply) (reply : Reply) : World × Progress :=
  match next with
  | .result => (w, .ok reply.toValue)
  | .done => (w, .ok .null)
  | .setup _ rest => w.setUp rest
  | .navigation url load timeout =>
      match navigationError? reply.result, load with
      | some text, _ =>
          (w.withdraw tab load,
            .error (.invalidArgument s!"Navigation to {url} failed: {text}"))
      | none, none => (w, .ok reply.toValue)
      | none, some p =>
          (w, .waiting (.wait tab (.event p w.now timeout) (some reply.toValue)))

end World

namespace Operation

/-- Takes what a command waits for one step on, if there is something to do. -/
def resume? (w : World) : Operation → Option (World × Progress)
  | .pause stop result => if stop ≤ w.now then some (w, .ok result) else none
  | .wait tab awaited result =>
      match w.tab? tab with
      | none => some (w, .error .connectionClosed)
      | some t =>
          (awaited.look? t.waiters w.now).map fun (waiters, standing) =>
            (w.modifyWaiters tab fun _ => waiters,
              match standing with
              | .open awaited => .waiting (.wait tab awaited result)
              | .ended r => .finished (r.map result.getD))
  | .reply call next =>
      match w.tab? call.tab with
      | none => some (w, .error .connectionClosed)
      | some t =>
          (t.connection.outcome? call.id call.method call.since call.timeout w.now).map fun r =>
            let w := w.modifyConnection call.tab fun c => c.release call.id
            match r with
            | .ok answer => w.afterReply call.tab next answer
            | .error e => w.failCall call.tab next e

def wake : Operation → Instant
  | .pause stop _ => stop.tick
  | .wait _ w _ => w.wake
  | .reply call _ => (call.since + call.timeout).tick

/-- Takes an operation one step on when nothing else goes on: if there is nothing to do, time
passes until it is to be resumed. -/
def advance (w : World) (op : Operation) : World × Progress :=
  match op.resume? w with
  | some r => r
  | none => ({ w with now := op.wake }, .waiting op)

end Operation

end TabPilot
