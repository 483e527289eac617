import TabPilot.Command.Operation

set_option autoImplicit false

/-! # Command sets

A command set is a list of commands under a qualifier. What a command does is a function of the
world and the invocation; it gives the world as it is then, and how far the command has come.
-/

namespace TabPilot

abbrev CommandBody : Type := World → Invocation → World × Progress

/-- A command that neither waits nor changes anything. -/
def CommandBody.answering (f : Invocation → Except Error Value) : CommandBody :=
  fun w i => (w, .finished (f i))

structure CommandEntry where
  name : String
  signature : Signature
  body : CommandBody

structure CommandSet where
  qualifier : String
  entries : List CommandEntry
  /-- What the call of a name comes to that is not among the commands. -/
  unknown : String → CommandBody

namespace CommandSet

def noSuchCommand (name : String) : Error := .invalidArgument s!"No such command '{name}'"

/-- A set in which no name but those of its commands can be called. -/
def closed (qualifier : String) (entries : List CommandEntry) : CommandSet :=
  ⟨qualifier, entries, fun name => .answering fun _ => .error (noSuchCommand name)⟩

def command? (s : CommandSet) (name : String) : Option CommandEntry :=
  s.entries.find? fun e => e.name = name

def signature? (s : CommandSet) (name : String) : Option Signature :=
  (s.command? name).map CommandEntry.signature

def execute (s : CommandSet) (name : String) : CommandBody :=
  match s.command? name with
  | some e => e.body
  | none => s.unknown name

end CommandSet

end TabPilot
