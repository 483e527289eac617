import TabPilot.Command.Set
import TabPilot.Run.Assignment
import TabPilot.Text.Split
import TabPilot.Value.Autotype

set_option autoImplicit false

/-! # Commands on variables

These commands work on the scope of the call, or on one farther out: the option `parent` says how
many steps, `true` meaning one.
-/

namespace TabPilot.Variables

def faultError (e : RunFailure) : Error := .script e.fault

/-- The number of steps that an invocation asks to go outwards. -/
def levels (i : Invocation) : Except Error Nat :=
  let asked : Except Error Int :=
    match i.option? "parent" with
    | none => .ok 0
    | some (.bool up) => .ok (if up then 1 else 0)
    | some v => v.asInteger "parent"
  match asked with
  | .error e => .error e
  | .ok n =>
      if 0 ≤ n then .ok n.toNat
      else .error (.invalidArgument s!"parent must not be negative, got {n}")

def target (w : World) (i : Invocation) : Except Error ScopeId :=
  (levels i).map (w.store.level i.scope)

/-- The value of an invocation. A string is a template, filled in from the scope of the call,
unless `interpolate` is off. -/
def newValue (w : World) (i : Invocation) : Except Error Value :=
  match (i.options.get? "value").getD .null with
  | .string template =>
      match i.flag "interpolate" true with
      | .error e => .error e
      | .ok false => .ok (.string template)
      | .ok true =>
          match Template.fill (w.store.get i.scope) template with
          | .ok s => .ok (.string s)
          | .error e => .error (faultError (.template e))
  | v => .ok v

def write (w : World) (s : ScopeId) (p : Path) (v result : Value) : World × Progress :=
  let (w, failure) := w.changeStore fun st => st.put .owner s p v
  (w, match failure with
    | none => .ok result
    | some e => .error (faultError e))

/-- The names that are visible. -/
def default : CommandBody := fun w i =>
  (w, .finished ((target w i).map fun s =>
    .array ((w.store.mapping s).names.map .string)))

/-- The value of a variable, or what stands in for it. -/
def get : CommandBody := fun w i =>
  (w, .finished (do
    let key ← i.requiredText
    let s ← target w i
    return ((w.store.get s (Path.parse key)).or (i.options.get? "fallback")).getD .null))

def set : CommandBody := fun w i =>
  let asked : Except Error (String × Value × ScopeId) := do
    let key ← i.requiredText
    let v ← newValue w i
    let s ← target w i
    return (key, v, s)
  match asked with
  | .error e => (w, .error e)
  | .ok (key, v, s) => write w s (Path.parse key) v v

/-- Takes a variable away and says whether there was one. -/
def clear : CommandBody := fun w i =>
  let asked : Except Error (String × ScopeId) := do
    let key ← i.requiredText
    let s ← target w i
    return (key, s)
  match asked with
  | .error e => (w, .error e)
  | .ok (key, s) =>
      let p := Path.parse key
      if w.store.contains s p then
        ((w.changeStore fun st => (st.unset s p, ())).1, .ok (.bool true))
      else (w, .ok (.bool false))

/-- Adds a value at the end of a list and gives the value. -/
def push : CommandBody := fun w i =>
  let asked : Except Error (String × Value × ScopeId) := do
    let key ← i.requiredText
    let v ← newValue w i
    let s ← target w i
    return (key, v, s)
  match asked with
  | .error e => (w, .error e)
  | .ok (key, v, s) =>
      let p := Path.parse key
      write w s p (Value.appended (w.store.get s p) v) v

/-- Takes the last item off a list and gives it. -/
def pop : CommandBody := fun w i =>
  let asked : Except Error (String × ScopeId) := do
    let key ← i.requiredText
    let s ← target w i
    return (key, s)
  match asked with
  | .error e => (w, .error e)
  | .ok (key, s) =>
      let p := Path.parse key
      match w.store.get s p with
      | some (.array items) =>
          write w s p (.array items.dropLast) (items.getLast?.getD .null)
      | _ => (w, .ok .null)

def ensure : CommandBody := fun w i =>
  (w, .finished (do
    let key ← i.requiredText
    let s ← target w i
    match w.store.get s (Path.parse key) with
    | some v => return v
    | none =>
        let message :=
          match i.option? "message" with
          | some (.string s) => s
          | _ => "\x7bkey\x7d must be specified."
        throw (.invalidArgument (Text.replace "\x7bkey\x7d" key none message))))

/-- What a path leads to when some variables cover those of a scope. -/
def readUnder (near : Record Value) (read : Path → Option Value) (p : Path) : Option Value :=
  match p with
  | [] => none
  | first :: rest =>
      match near.get? first.memberName with
      | some v => v.lookup rest
      | none => read p

/-- Fills in a template from values and, unless `isolated` is on, the scope of the call; the text
is read as a value. -/
def interpolate : CommandBody := fun w i =>
  (w, .finished (do
    let template ← i.requiredText
    let values ←
      match i.option? "values" with
      | none => pure Record.empty
      | some (.object r) => pure r
      | some v => throw (.invalidArgument s!"values must be an object, got {v.json}")
    let isolated ← i.flag "isolated" false
    let outer := if isolated then fun _ => none else w.store.get i.scope
    match Template.fill (readUnder values outer) template with
    | .ok s => return (Value.string s).autotype
    | .error e => throw (faultError (.template e))))

def commands : CommandSet :=
  .closed "vars"
    [⟨"default", .new .none ["parent"], default⟩,
      ⟨"get", .new .required ["fallback", "parent"], get⟩,
      ⟨"set", .new .required ["value", "interpolate", "parent"], set⟩,
      ⟨"clear", .new .required ["parent"], clear⟩,
      ⟨"push", .new .required ["value", "interpolate", "parent"], push⟩,
      ⟨"pop", .new .required ["parent"], pop⟩,
      ⟨"ensure", .new .required ["parent", "message"], ensure⟩,
      ⟨"interpolate", .new .required ["isolated", "values"], interpolate⟩]

end TabPilot.Variables
