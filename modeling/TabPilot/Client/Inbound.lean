import TabPilot.Event.Basic
import TabPilot.Value.Json
import TabPilot.Error

set_option autoImplicit false

/-! # Messages from the debugger

What a message is: a reply to a request, an event, or something that is only noted in the log.
-/

namespace TabPilot

inductive Level
  | debug | info | warn | error
  deriving Repr, DecidableEq

def Level.name : Level → String
  | .debug => "DEBUG"
  | .info => "INFO"
  | .warn => "WARN"
  | .error => "ERROR"

structure LogEntry where
  level : Level
  text : String
  deriving Repr, DecidableEq

inductive Inbound
  | reply (id : Nat) (members : Record Value)
  | event (e : Event)
  | notObject (v : Value)
  | badId (id : Value)
  | badName (name : String)
  | strayError (e : Value)
  | unknown (members : Record Value)

namespace Inbound

/-- What a message is. Whatever has an `id` is a reply; what has none but a method is an event. -/
def ofMessage : Value → Inbound
  | .object members =>
      match members.get? "id", members.get? "method" with
      | some id, _ =>
          match id.unsigned? with
          | some n => .reply n members
          | none => .badId id
      | none, some (.string name) =>
          let params := (members.get? "params").getD (.object Record.empty)
          match Event.ofName? name params with
          | some e => .event e
          | none => .badName name
      | none, _ =>
          match members.get? "error" with
          | some e => .strayError e
          | none => .unknown members
  | v => .notObject v

def note? : Inbound → Option LogEntry
  | .notObject v => some ⟨.warn, "Ignoring non-object message from debugger: " ++ v.json⟩
  | .badId id => some ⟨.warn, "Ignoring reply with non-integer id: " ++ id.json⟩
  | .badName name => some ⟨.warn, s!"Ignoring event with unqualified name '{name}'"⟩
  | .strayError e => some ⟨.error, "Debugger reported an error outside any request: " ++ e.json⟩
  | .unknown members =>
      some ⟨.warn, "Unrecognized message from debugger: " ++ (Value.object members).json⟩
  | .reply _ _ | .event _ => none

def text? : Value → Option String
  | .string s => some s
  | _ => none

def errorOf (e : Value) : Error :=
  let member (name : String) : Option Value :=
    match e with
    | .object members => members.get? name
    | _ => none
  match (member "code").bind Value.signed?, (member "message").bind text? with
  | some code, some message =>
      match (member "data").bind text? with
      | some data => .protocol code (message ++ " - " ++ data)
      | none => .protocol code message
  | _, _ => .protocol (-1) ("Malformed error payload: " ++ e.json)

/-- What a reply to a request for `method` says: an error before a result. -/
def resultOf (method : String) (members : Record Value) : Except Error Value :=
  match members.get? "error", members.get? "result" with
  | some e, _ => .error (errorOf e)
  | none, some v => .ok v
  | none, none => .error (.protocol (-1) s!"Malformed reply to {method}: no result or error")

end Inbound

end TabPilot
