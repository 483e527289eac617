import TabPilot.Script.Token.Basic
import TabPilot.Script.Fault

set_option autoImplicit false

/-! # What can be wrong with the text of a script -/

namespace TabPilot

/-- What the grammar asks for at a place where something else stands. -/
inductive Expectation
  | symbol (s : Symbol)
  | statementEnd
  | eventName
  | commandName
  | resultVariable
  | loopInitializer
  | loopIncrement
  | loopSource
  | loopLevel
  | objectKey
  | fieldName
  | variable
  | value (found : TokenKind)

def Expectation.text : Expectation → String
  | .symbol s => (TokenKind.symbol s).describe
  | .statementEnd => "end of statement"
  | .eventName => "event name"
  | .commandName => "command name"
  | .resultVariable => "result variable"
  | .loopInitializer => "loop initializer"
  | .loopIncrement => "loop increment"
  | .loopSource => "variable or command to loop over"
  | .loopLevel => "a positive loop level"
  | .objectKey => "object key"
  | .fieldName => "field name"
  | .variable => "variable"
  | .value found => "value, found " ++ found.describe

inductive Misreading
  | noVariableName
  | openString
  | openHeredoc
  | openPattern
  | badNumber (digits : String)
  | badFlag (flag : Char)
  | badCharacter (c : Char)
  | expected (what : Expectation)
  | handlerInside
  | tooDeep

def Misreading.message : Misreading → String
  | .noVariableName => "Expected variable name"
  | .openString => "Unterminated string"
  | .openHeredoc => "Expected 'end' to close heredoc"
  | .openPattern => "Unterminated regular expression"
  | .badNumber digits => "Invalid number '" ++ digits ++ "'"
  | .badFlag flag => "Unknown regular expression flag '" ++ String.singleton flag ++ "'"
  | .badCharacter c => "Unexpected character '" ++ String.singleton c ++ "'"
  | .expected what => "Expected " ++ what.text
  | .handlerInside => "Event handlers are only allowed at the top level"
  | .tooDeep => "Nested too deeply"

structure Misread where
  cause : Misreading
  position : Position

def Misread.fault (m : Misread) : Fault := (Fault.new .reading m.cause.message).placed m.position

end TabPilot
