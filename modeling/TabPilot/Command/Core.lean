import TabPilot.Command.Set
import TabPilot.Value.Autotype

set_option autoImplicit false

/-! # The core commands

Values and the log, pauses, calls of the protocol, navigation, and the execution options.
-/

namespace TabPilot.Core

def loadEvent : String := "Page.loadEventFired"

def usualTimeout : Nat := 30000

/-- How often to look whether it is quiet, in milliseconds. -/
def usualPoll : Nat := 250

/-- How long no page may load for a load to count as over, in milliseconds. -/
def usualIdle : Nat := 500

/-! ## Values and the log -/

/-- Gives the argument or else the options, with strings read as values. -/
def put (i : Invocation) : Except Error Value :=
  match i.argument with
  | some v => .ok v.autotype
  | none => .ok (if i.options.isEmpty then .null else .object (i.options.map Value.autotype))

def levelOf (word : String) : Except Error Level :=
  match Decimal.asciiLower word with
  | "debug" => .ok .debug
  | "info" => .ok .info
  | "warning" | "warn" => .ok .warn
  | "error" => .ok .error
  | _ => .error (.invalidArgument s!"Unknown log level '{word}'")

/-- The line for a value; lists and objects are laid out in several lines if `spread`. -/
def logLine (spread : Bool) (v : Value) : String :=
  match v with
  | .array _ | .object _ => if spread then v.prettyJson else v.render
  | _ => v.render

/-- The entry that an invocation asks for: its argument, or else its other options. -/
def logEntry (i : Invocation) : Except Error LogEntry := do
  let word ← i.text "level"
  let indent ← i.integer "indent" 4
  let shown := i.argument.getD (.object ((i.options.erase "level").erase "indent"))
  let level ← levelOf (word.getD "info")
  return ⟨level, logLine (0 ≤ indent) shown⟩

def log : CommandBody := fun w i =>
  match logEntry i with
  | .ok entry => (w.note entry, .ok (.string entry.text))
  | .error e => (w, .error e)

/-! ## Pauses and calls -/

/-- Waits for some milliseconds and gives their number. -/
def sleep : CommandBody := fun w i =>
  match i.required with
  | .error e => (w, .error e)
  | .ok v =>
      match v.asMillis "milliseconds" with
      | .error e => (w, .error e)
      | .ok d => (w, .waiting (.pause (w.now + d) v))

/-- Calls a method of the protocol with the options as its parameters. -/
def rpc : CommandBody := fun w i =>
  match i.requiredText, w.defaultTab with
  | .error e, _ => (w, .error e)
  | .ok _, .error e => (w, .error e)
  | .ok method, .ok tab => w.call tab method (.object i.options) none .result

/-! ## Navigation -/

/-- A referrer that was not used before: an address with a random identifier's look, which holds
a number. -/
def freshReferrer (number : Nat) : String :=
  let digits := Nat.toDigits 16 (number % twoTo 48)
  "http://example.com/00000000-0000-4000-8000-" ++
    String.ofList (List.replicate (12 - digits.length) '0' ++ digits)

/-- The referrer that an invocation asks for: none, one made up, or the one given. -/
inductive Referrer
  | absent
  | madeUp
  | given (url : String)

def referrerOf (i : Invocation) : Except Error Referrer :=
  match i.options.get? "referrer" with
  | none | some (.string "random") => .ok .madeUp
  | some .null => .ok .absent
  | some (.string url) => .ok (.given url)
  | some v =>
      .error (.invalidArgument s!"referrer must be a URL, 'random' or null, got {v.json}")

structure Navigation where
  url : String
  tab : TabId
  referrer : Referrer
  waits : Bool
  timeout : Duration

def navigationOf (w : World) (i : Invocation) : Except Error Navigation := do
  let url ← i.requiredText
  let tab ← w.defaultTab
  let referrer ← referrerOf i
  let waits ← i.flag "wait_for_load" true
  let timeout ← i.millis "timeout" usualTimeout
  return ⟨url, tab, referrer, waits, timeout⟩

def navigationParams (w : World) (n : Navigation) : World × Value :=
  let url := ("url", Value.string n.url)
  match n.referrer with
  | .absent => (w, .ofMembers [url])
  | .given referrer => (w, .ofMembers [url, ("referrer", .string referrer)])
  | .madeUp =>
      ({ w with referrers := w.referrers + 1 },
        .ofMembers [url, ("referrer", .string (freshReferrer w.referrers))])

/-- Asks for a page and waits until it has loaded. The wait is registered before the page is
asked for, so that a page that loads at once is not missed. -/
def go : CommandBody := fun w i =>
  match navigationOf w i with
  | .error e => (w, .error e)
  | .ok n =>
      let (w, params) := navigationParams w n
      match n.waits, w.tab? n.tab with
      | true, some t =>
          let (waiters, p) := t.waiters.register w.now loadEvent []
          (w.modifyWaiters n.tab fun _ => waiters).call n.tab "Page.navigate" params none
            (.navigation n.url (some p) n.timeout)
      | _, _ => w.call n.tab "Page.navigate" params none (.navigation n.url none n.timeout)

def beginWait (w : World) (tab : TabId) (begin : Waiters → Waiters × Wait) : World × Progress :=
  match w.tab? tab with
  | none => (w, .error .connectionClosed)
  | some t =>
      let (waiters, wait) := begin t.waiters
      (w.modifyWaiters tab fun _ => waiters, .waiting (.wait tab wait none))

/-- Waits until a page has loaded and no other has for some time. -/
def waitForLoad : CommandBody := fun w i =>
  let asked : Except Error (TabId × Duration × Duration) := do
    let tab ← w.defaultTab
    let timeout ← i.millis "timeout" usualTimeout
    let idle ← i.millis "idle_time" usualIdle
    return (tab, timeout, idle)
  match asked with
  | .error e => (w, .error e)
  | .ok (tab, timeout, idle) =>
      beginWait w tab
        (if idle = 0 then Wait.forEvent loadEvent [] timeout w.now
        else Wait.forQuiet ⟨idle, [loadEvent], timeout, Duration.ofMillis usualPoll, w.now⟩)

/-! ## Setting up -/

/-- The pause after commands that an invocation sets, if it does. -/
def demoDelay (i : Invocation) : Except Error (Option Duration) :=
  match i.option? "demo" with
  | some (.object members) =>
      match members.get? "delay" with
      | some v => (v.asMillis "demo.delay").map some
      | none => .ok none
  | _ => .ok none

/-- The domains whose events an invocation enables. -/
def eventSteps (w : World) (i : Invocation) : Except Error (List SetupStep) :=
  match i.option? "events" with
  | none => .ok []
  | some (.array names) =>
      w.defaultTab.map fun tab => names.map fun name => .find tab name.render
  | some _ => .error (.invalidArgument "events must be a list of domain names")

/-- Sets up the run and the default tab: the pause after commands, events, the name that the
browser gives itself, and headers, in this order. -/
def configure : CommandBody := fun w i =>
  match demoDelay i with
  | .error e => (w, .error e)
  | .ok delay =>
      let w :=
        match delay with
        | some d =>
            let ms := Value.float (d.toSeconds * 1000.0)
            { w with options := w.options.insert World.delayOption ms }
        | none => w
      match eventSteps w i with
      | .error e => (w, .error e)
      | .ok events =>
          let agent := ((i.option? "user_agent").map SetupStep.userAgent).toList
          let headers := ((i.option? "extra_headers").map SetupStep.headers).toList
          w.setUp (events ++ agent ++ headers)

/-! ## Execution options -/

/-- Does something with the execution option that the argument names. -/
def withKey (f : World → Invocation → String → World × Value) : CommandBody := fun w i =>
  match i.requiredText with
  | .error e => (w, .error e)
  | .ok key =>
      let (w, v) := f w i key
      (w, .ok v)

def setOption : CommandBody := withKey fun w i key =>
  let v := (i.options.get? "value").getD .null
  ({ w with options := w.options.insert key v }, v)

def getOption : CommandBody := withKey fun w i key =>
  (w, ((w.options.get? key).or (i.options.get? "fallback")).getD .null)

/-- Takes an execution option away and says whether there was one. -/
def clearOption : CommandBody := withKey fun w _ key =>
  ({ w with options := w.options.erase key }, .bool (w.options.contains key))

def commands : CommandSet :=
  .closed "core"
    [⟨"put", .anyOptions .optional, .answering put⟩,
      ⟨"log", .anyOptions .optional, log⟩,
      ⟨"sleep", .new .required [], sleep⟩,
      ⟨"rpc", .anyOptions .required, rpc⟩,
      ⟨"go", .new .required ["referrer", "wait_for_load", "timeout"], go⟩,
      ⟨"wait_for_load", .new .none ["timeout", "idle_time"], waitForLoad⟩,
      ⟨"configure", .new .none ["events", "demo", "user_agent", "extra_headers"], configure⟩,
      ⟨"set_option", .new .required ["value"], setOption⟩,
      ⟨"get_option", .new .required ["fallback"], getOption⟩,
      ⟨"clear_option", .new .required [], clearOption⟩]

end TabPilot.Core
