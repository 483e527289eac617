import TabPilot.Wire.Framing
import TabPilot.Time

set_option autoImplicit false

/-! # Scripted debuggers

A scripted debugger answers requests by rules: each method has one rule for all its requests, or a
list of rules that is used up one by one. A rule says what is replied and when, and which messages
follow a request.
-/

namespace TabPilot

/-- A message that a debugger sends: a value, or a text that may be no JSON at all. -/
inductive Utterance
  | message (v : Value)
  | raw (text : String)

def Utterance.bytes : Utterance → List UInt8
  | .message v => Wire.encode v
  | .raw text => Wire.bytesOf text ++ [Wire.delimiter]

inductive Answer
  | result (v : Value)
  | error (v : Value)
  /-- A reply with neither result nor error. -/
  | empty
  | silence

/-- What a debugger does about a request. The times count from the request. -/
structure Rule where
  answer : Answer
  delay : Duration
  messages : List (Duration × Utterance)

inductive RulePlan
  | always (r : Rule)
  | inTurn (rs : List Rule)

/-- A scripted debugger at the far end of a pipe, and the reader at the near end. -/
structure Debugger where
  rules : List (String × RulePlan)
  connected : Bool
  reader : Wire.Framing

namespace Debugger

def start (rules : List (String × RulePlan)) : Debugger := ⟨rules, true, .start⟩

/-- The rule where no other is given: an empty result at once. -/
def usualRule : Rule := ⟨.result (.object Record.empty), 0, []⟩

def takeRule (method : String) : List (String × RulePlan) → Rule × List (String × RulePlan)
  | [] => (usualRule, [])
  | (name, plan) :: rest =>
      if name = method then
        match plan with
        | .always r => (r, (name, plan) :: rest)
        | .inTurn [] => (usualRule, (name, plan) :: rest)
        | .inTurn (r :: others) => (r, (name, .inTurn others) :: rest)
      else
        let (r, rest) := takeRule method rest
        (r, (name, plan) :: rest)

def replyTo (id : Value) : Answer → Option Value
  | .result v => some (.ofMembers [("id", id), ("result", v)])
  | .error v => some (.ofMembers [("id", id), ("error", v)])
  | .empty => some (.ofMembers [("id", id)])
  | .silence => none

def memberOf (request : Value) (name : String) : Value :=
  match request with
  | .object members => (members.get? name).getD .null
  | _ => .null

/-- What a debugger will send because of a request, and when. -/
def respond (d : Debugger) (now : Instant) (request : Value) :
    Debugger × List (Instant × Utterance) :=
  let method :=
    match memberOf request "method" with
    | .string s => s
    | _ => ""
  let (rule, rules) := takeRule method d.rules
  let reply := (replyTo (memberOf request "id") rule.answer).map fun v =>
    (now + rule.delay, Utterance.message v)
  ({ d with rules }, reply.toList ++ rule.messages.map fun (after, u) => (now + after, u))

end Debugger

end TabPilot
