import TabPilot.Script.Tree
import TabPilot.Script.Fault
import TabPilot.Scope.Store
import TabPilot.Scope.Template
import TabPilot.Pattern.Basic

set_option autoImplicit false

/-! # Why a statement cannot be run -/

namespace TabPilot

/-- Why a statement, an expression or the call of a command has no result. -/
inductive RunFailure
  | operator (cause : Value.Failure)
  | variable (cause : Store.Failure)
  | template (cause : Template.Failure)
  | pattern (source : String) (cause : Pattern.Failure)
  | patternAlone (source : String)
  | badSign (type : String)
  | badIndex (name type : String)
  | badCount (v : Value)
  | badItems (type : String)
  | jumpOutside (kind : JumpKind)
  | unknownQualifier (name : String)
  | unknownCommand (name : String)
  | needsArgument (command : String)
  | noArgument (command : String)
  | badOption (command option : String)

def JumpKind.word : JumpKind → String
  | .break => "break"
  | .continue => "continue"

namespace RunFailure

def message : RunFailure → String
  | .operator cause => cause.message
  | .variable cause => cause.message
  | .template cause => cause.message
  | .pattern source cause => "Invalid regular expression: " ++ cause.message source
  | .patternAlone source => s!"Regular expression /{source}/ can only be used with =~ or !~"
  | .badSign type => s!"bad operand type for unary -: '{type}'"
  | .badIndex name type => s!"Cannot index ${name} with a value of type {type}"
  | .badCount v => s!"Loop count must be a non-negative integer, got {v.json}"
  | .badItems type => s!"Cannot loop on result of type {type}"
  | .jumpOutside kind => s!"'{kind.word}' used outside of a loop"
  | .unknownQualifier name => s!"Unregistered qualifier '{name}'"
  | .unknownCommand name => s!"No such command '{name}'"
  | .needsArgument command => s!"Command '{command}' requires an argument"
  | .noArgument command => s!"Command '{command}' does not take an argument"
  | .badOption command option => s!"Command '{command}' does not accept option '{option}'"

/-- The fault of a script that fails so, as yet without a place. -/
def fault (e : RunFailure) : Fault := Fault.new .running e.message

end RunFailure

end TabPilot
