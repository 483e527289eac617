import TabPilot.Command.Core
import TabPilot.Command.Events
import TabPilot.Command.Formatting
import TabPilot.Command.Variables

set_option autoImplicit false

/-! # All commands

A command is written with the qualifier of its set before it, or without one if it is a core
command.
-/

namespace TabPilot

/-- The command sets of a run, in order of their qualifiers. -/
structure Catalogue where
  sets : List CommandSet

namespace Catalogue

def standard : Catalogue :=
  ⟨[Core.commands, Events.commands, Formatting.commands, Variables.commands]⟩

def set? (c : Catalogue) (qualifier : String) : Option CommandSet :=
  c.sets.find? fun s => s.qualifier = qualifier

/-- Puts a set in its place in order of the qualifiers; it replaces the one of its qualifier. -/
def register (c : Catalogue) (set : CommandSet) : Catalogue :=
  let others := c.sets.filter fun s => s.qualifier ≠ set.qualifier
  let before := others.takeWhile fun s => s.qualifier < set.qualifier
  ⟨before ++ set :: others.drop before.length⟩

def qualifiers (c : Catalogue) : List String := c.sets.map CommandSet.qualifier

def commandNames (c : Catalogue) : List String :=
  (c.sets.flatMap fun s => s.entries.map fun e => s.qualifier ++ "::" ++ e.name).mergeSort
    fun a b => a ≤ b

/-- The qualifier of commands that are written without one. -/
def usualQualifier : String := "core"

/-- Splits a name at its first double colon. -/
def splitName (name : List Char) : Option (List Char × List Char) :=
  match name with
  | [] => none
  | ':' :: ':' :: rest => some ([], rest)
  | c :: rest => (splitName rest).map fun (qualifier, inner) => (c :: qualifier, inner)

def resolve (c : Catalogue) (name : String) : Except RunFailure (CommandSet × String) :=
  let (qualifier, inner) :=
    match splitName name.toList with
    | some (qualifier, inner) => (String.ofList qualifier, String.ofList inner)
    | none => (usualQualifier, name)
  match c.set? qualifier with
  | some s => .ok (s, inner)
  | none => .error (.unknownQualifier qualifier)

end Catalogue

end TabPilot
