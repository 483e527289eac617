import TabPilot.Client.Tab
import TabPilot.Command.Invocation

set_option autoImplicit false

/-! # What a run sees and changes

The world of a run: the time, the scopes, the execution options, the log, and the tabs of a
browser.
-/

namespace TabPilot

abbrev TabId : Type := Nat

/-- The attached tabs of a browser, and the id of the one that commands use. -/
structure Browser where
  attached : List TabId
  default : Option String

structure World where
  now : Instant
  store : Store
  options : Record Value
  /-- The log, latest entry first. -/
  log : List LogEntry
  tabs : List Tab
  browser : Option Browser
  /-- What probes have seen, latest first: their tag and the event's name. -/
  seen : List (String × String)
  /-- How many referrers were made up so far. -/
  referrers : Nat

namespace World

def empty : World := ⟨0, Store.empty, Record.empty, [], [], none, [], 0⟩

def note (w : World) (entry : LogEntry) : World := { w with log := entry :: w.log }

def noteAll (w : World) (entry : Option LogEntry) : World :=
  match entry with
  | some entry => w.note entry
  | none => w

/-- Changes the scopes; nothing else of the world is looked at meanwhile. -/
def changeStore {α : Type} (w : World) (f : Store → Store × α) : World × α :=
  match w with
  | ⟨now, store, options, log, tabs, browser, seen, referrers⟩ =>
      let (store, r) := f store
      (⟨now, store, options, log, tabs, browser, seen, referrers⟩, r)

/-! ## Tabs -/

def tab? (w : World) (t : TabId) : Option Tab := w.tabs[t]?

def modifyTab (w : World) (t : TabId) (f : Tab → Tab) : World :=
  { w with tabs := w.tabs.modify t f }

def idOf (w : World) (t : TabId) : String := ((w.tab? t).map Tab.id).getD ""

def attachedIds (w : World) : List String :=
  ((w.browser.map Browser.attached).getD []).map w.idOf

def attachedTab? (w : World) (b : Browser) (id : String) : Option TabId :=
  b.attached.find? fun t => (w.tab? t).any fun tab => tab.id = id

/-- The tab that commands use. -/
def defaultTab (w : World) : Except Error TabId :=
  match w.browser with
  | none => .error (.invalidArgument "No browser is attached")
  | some b =>
      match b.default with
      | none => .error (.invalidArgument "No tabs are attached")
      | some id =>
          match w.attachedTab? b id with
          | some t => .ok t
          | none => .error (.invalidArgument s!"Cannot find tab '{id}'")

def setDefaultTab (w : World) (id : String) : Except Error World :=
  match w.browser.bind fun b => (w.attachedTab? b id).map fun _ => b with
  | some b => .ok { w with browser := some { b with default := some id } }
  | none => .error (.invalidArgument s!"Cannot find tab '{id}'")

def modifyWaiters (w : World) (t : TabId) (f : Waiters → Waiters) : World :=
  w.modifyTab t fun tab => { tab with waiters := f tab.waiters }

def modifyConnection (w : World) (t : TabId) (f : Connection → Connection) : World :=
  w.modifyTab t fun tab => { tab with connection := f tab.connection }

/-! ## Execution options -/

/-- The option that holds the pause after every command, in milliseconds. -/
def delayOption : String := "demo.post_command_delay"

def commandDelay? (w : World) : Option Duration :=
  ((w.options.get? delayOption).bind Value.toFloat?).bind fun ms =>
    if ms ≤ 0.0 then none else Duration.ofSeconds? (ms / 1000.0)

end World

end TabPilot
