import TabPilot.Command.Catalogue

set_option autoImplicit false

/-! # From a written command to its result

A command is found in the catalogue, its argument and its options are evaluated, the call is
checked against what the command accepts, and the place of the result is found out. Then it is
carried out. `World.conclude` stores its result, or tells the log and the script of its failure.
-/

namespace TabPilot

/-- A command that is being carried out: its own name, the scope it was written in, and the path
at which its result is to be stored. -/
structure ActiveCommand where
  command : Command
  name : String
  scope : ScopeId
  target : Option Path

structure PreparedCommand where
  active : ActiveCommand
  body : CommandBody
  invocation : Invocation

/-- The path of a result whose command names no place for it. -/
def usualTarget : Path := [.key "result"]

/-- The path at which a result is to be stored, if it is. -/
def Destination.path (read : Path → Option Value) : Destination → Except RunFailure (Option Path)
  | .default => .ok (some usualTarget)
  | .discard => .ok none
  | .variable v => (v.path read).map some
  | .key name =>
      match Template.fill read name with
      | .ok s => .ok (some [.key s])
      | .error e => .error (.template e)

def Expr.evalOptional (read : Path → Option Value) :
    Option Expr → Except RunFailure (Option Value)
  | none => .ok none
  | some e => (e.eval read).map some

/-- The command of a name in the catalogue, with its name in its set. -/
def Catalogue.command (c : Catalogue) (name : String) :
    Except RunFailure (CommandEntry × String) :=
  match c.resolve name with
  | .error e => .error e
  | .ok (set, inner) =>
      match set.command? inner with
      | some entry => .ok (entry, inner)
      | none => .error (.unknownCommand inner)

/-- Makes a command ready. The first thing that is wrong counts: the name, the argument, the
options, the call as a whole, the place of the result. -/
def Catalogue.prepare (c : Catalogue) (read : Path → Option Value) (s : ScopeId) (cmd : Command) :
    Except RunFailure PreparedCommand := do
  let (entry, name) ← c.command cmd.name
  let argument ← Expr.evalOptional read cmd.id
  let options := Record.ofList (← Expr.evalEntries read (cmd.options.getD []))
  match entry.signature.refusal? cmd.name argument.isSome options with
  | some e => throw e
  | none =>
      let target ← cmd.destination.path read
      return ⟨⟨cmd, name, s, target⟩, entry.body, ⟨argument, options, s⟩⟩

/-! ## Results -/

/-- What is said of a failed command: the message of a script's fault, or else the error. -/
def Error.cause (e : Error) : String :=
  match e.fault? with
  | some fault => fault.message
  | none => e.message

def ActiveCommand.fault (a : ActiveCommand) (e : Error) : Fault :=
  (Fault.new .command s!"Error running command '{a.name}': {e.cause}").placed a.command.position

def ActiveCommand.failureEntry (a : ActiveCommand) (e : Error) : LogEntry :=
  ⟨.warn, s!"Command '{a.command.name}' failed: {e.cause}"⟩

def World.storeResult (w : World) (a : ActiveCommand) (v : Value) : World × Option Fault :=
  match a.target with
  | none => (w, none)
  | some p =>
      let (w, failure) := w.changeStore fun st => st.put .owner a.scope p v
      (w, failure.map fun e => e.fault.placed a.command.position)

/-- Ends a command: its result is normalised and stored, its failure is logged. -/
def World.conclude (w : World) (a : ActiveCommand) (r : Except Error Value) :
    World × Except Fault Value :=
  match r with
  | .error e => (w.note (a.failureEntry e), .error (a.fault e))
  | .ok v =>
      let v := v.normalize
      match w.storeResult a v with
      | (w, some fault) => (w, .error fault)
      | (w, none) => (w, .ok v)

end TabPilot
