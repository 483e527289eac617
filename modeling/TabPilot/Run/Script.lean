import TabPilot.Run.Machine

set_option autoImplicit false

/-! # Running a script

Before the first statement runs, the handlers of a script are registered as callbacks of the
default tab; they are taken away again at the end unless the run is to leave them. When an event
comes, each handler for it runs as a thread of its own, in a new scope that holds the event.
-/

namespace TabPilot

structure RunOptions where
  /-- Whether the handlers stay registered after the end. -/
  preserve : Bool
  /-- The file name that faults show instead of the script's own. -/
  filename : Option String

structure ScriptRun where
  thread : Thread
  source : String
  filename : Option String
  tab : TabId
  handlers : List HandlerId
  preserve : Bool

structure HandlerRun where
  thread : Thread
  event : String
  source : String
  filename : Option String

/-- An error with the source and the file of the script it comes from. -/
def Error.withSource (e : Error) (source : String) (filename : Option String) : Error :=
  match e.fault? with
  | some fault => .script (fault.withSource source filename)
  | none => e

namespace World

/-! ## Handlers -/

def reactionOf (h : Handler) (s : ScopeId) (source : String) (filename : Option String) :
    Callback :=
  .reaction ⟨h.isolated, h.body, s, source, filename⟩

/-- Registers a handler in a tab. Its pattern is a template. -/
def registerHandler (w : World) (tab : TabId) (s : ScopeId) (h : Handler) (callback : Callback) :
    Except Error (World × HandlerId) :=
  match Template.fill (w.read s) h.pattern, w.tab? tab with
  | .error e, _ => .error (.script ((RunFailure.template e).fault.placed h.position))
  | .ok _, none => .error .connectionClosed
  | .ok name, some t => (t.on name callback).map fun (t, id) => (w.modifyTab tab fun _ => t, id)

def removeHandlers (w : World) (tab : TabId) (ids : List HandlerId) : World :=
  w.modifyTab tab fun t => ids.foldl (fun t id => (t.remove id).1) t

/-- Registers handlers in a tab. If one cannot be registered, those before it are taken away
again. -/
def registerHandlers (w : World) (tab : TabId) (s : ScopeId) (source : String)
    (filename : Option String) (done : List HandlerId) :
    List Handler → World × Except Error (List HandlerId)
  | [] => (w, .ok done)
  | h :: rest =>
      match w.registerHandler tab s h (reactionOf h s source filename) with
      | .ok (w, id) => w.registerHandlers tab s source filename (done ++ [id]) rest
      | .error e => (w.removeHandlers tab done, .error e)

/-- Runs the body of a handler for an event: in a scope inside that of the script, or in one that
stands alone. -/
def react (w : World) (r : Reaction) (e : Event) : World × HandlerRun :=
  let vars := Record.empty.insert "event" e.toValue
  let (w, s) := w.changeStore fun st =>
    if r.isolated then st.addRoot vars else st.addChild r.scope vars
  (w, ⟨.start r.body s, e.name, r.source, r.filename⟩)

def handlerFailure (h : HandlerRun) (fault : Fault) : LogEntry :=
  ⟨.warn,
    s!"Event handler for {h.event} failed: {(fault.withSource h.source h.filename).render}"⟩

/-! ## Scripts -/

/-- Begins to run a script in a scope. The default tab is needed only if there are handlers. -/
def beginScript (w : World) (script : Script) (s : ScopeId) (o : RunOptions) :
    World × Except Error ScriptRun :=
  let filename := o.filename.or script.filename
  let run (tab : TabId) (ids : List HandlerId) : ScriptRun :=
    ⟨.start script.statements s, script.source, filename, tab, ids, o.preserve⟩
  if script.handlers.isEmpty then (w, .ok (run 0 []))
  else
    match w.defaultTab with
    | .error e => (w, .error (e.withSource script.source filename))
    | .ok tab =>
        match w.registerHandlers tab s script.source filename [] script.handlers with
        | (w, .ok ids) => (w, .ok (run tab ids))
        | (w, .error e) => (w, .error (e.withSource script.source filename))

/-- Ends a run: its handlers are taken away unless they are to stay, and a fault shows the
source. -/
def endScript (w : World) (r : ScriptRun) (outcome : Except Fault Unit) :
    World × Except Error Unit :=
  let w := if r.preserve then w else w.removeHandlers r.tab r.handlers
  (w,
    match outcome with
    | .ok () => .ok ()
    | .error fault => .error (.script (fault.withSource r.source r.filename)))

/-- Takes a thread one step on when nothing else goes on: if it waits, time passes. -/
def advanceThread (c : Catalogue) (w : World) (t : Thread) : World × Thread :=
  if t.isBlocked w then ({ w with now := t.wake?.getD w.now }, t) else t.step c w

end World

end TabPilot
