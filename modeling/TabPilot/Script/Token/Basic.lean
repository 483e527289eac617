import TabPilot.Script.Position
import TabPilot.Decimal.Layout

set_option autoImplicit false

/-! # Tokens

A script is read as a list of tokens that ends with `endOfInput`. Every token knows where it
starts and whether it is `spaced`, that is, whether something other than a token stands before
it: this tells `$a[0]`, an element of `$a`, from `$a [0]`, which is two operands.
-/

namespace TabPilot

/-- The operators and the punctuation of scripts. -/
inductive Symbol
  | doubleColon | arrow | append | addAssign | subtractAssign | multiplyAssign | divideAssign
  | andAssign | orAssign | equal | notEqual | atMost | atLeast | matches | unmatches | power
  | semicolon | comma | colon | dot | openBrace | closeBrace | openBracket | closeBracket
  | openParen | closeParen | assign | less | greater | plus | minus | star | slash | percent
  | ampersand | pipe | caret | tilde
  deriving Repr, DecidableEq

namespace Symbol

def text : Symbol → String
  | .doubleColon => "::"
  | .arrow => "->"
  | .append => "<<"
  | .addAssign => "+="
  | .subtractAssign => "-="
  | .multiplyAssign => "*="
  | .divideAssign => "/="
  | .andAssign => "&="
  | .orAssign => "|="
  | .equal => "=="
  | .notEqual => "!="
  | .atMost => "<="
  | .atLeast => ">="
  | .matches => "=~"
  | .unmatches => "!~"
  | .power => "**"
  | .semicolon => ";"
  | .comma => ","
  | .colon => ":"
  | .dot => "."
  | .openBrace => "\x7b"
  | .closeBrace => "\x7d"
  | .openBracket => "["
  | .closeBracket => "]"
  | .openParen => "("
  | .closeParen => ")"
  | .assign => "="
  | .less => "<"
  | .greater => ">"
  | .plus => "+"
  | .minus => "-"
  | .star => "*"
  | .slash => "/"
  | .percent => "%"
  | .ampersand => "&"
  | .pipe => "|"
  | .caret => "^"
  | .tilde => "~"

def pairs : List Symbol :=
  [.doubleColon, .arrow, .append, .addAssign, .subtractAssign, .multiplyAssign, .divideAssign,
    .andAssign, .orAssign, .equal, .notEqual, .atMost, .atLeast, .matches, .unmatches, .power]

def singles : List Symbol :=
  [.semicolon, .comma, .colon, .dot, .openBrace, .closeBrace, .openBracket, .closeBracket,
    .openParen, .closeParen, .assign, .less, .greater, .plus, .minus, .star, .slash, .percent,
    .ampersand, .pipe, .caret, .tilde]

def leading? (cs : List Char) : Option Symbol :=
  (pairs ++ singles).find? fun s => s.text.toList.isPrefixOf cs

end Symbol

inductive TokenKind
  | newline
  | endOfInput
  | symbol (s : Symbol)
  | word (w : String)
  | variable (name : String)
  | int (i : Int)
  | float (f : Float)
  | text (content : String) (interpolated : Bool)
  | pattern (source flags : String)

namespace TokenKind

def describe : TokenKind → String
  | .newline => "end of line"
  | .endOfInput => "end of input"
  | .symbol s => "'" ++ s.text ++ "'"
  | .word w => "'" ++ w ++ "'"
  | .variable name => "'$" ++ name ++ "'"
  | .int i => "'" ++ toString i ++ "'"
  | .float f => "'" ++ Decimal.Layout.plain.text f ++ "'"
  | .text _ _ => "string"
  | .pattern _ _ => "regular expression"

def isSymbol (s : Symbol) : TokenKind → Bool
  | .symbol t => s = t
  | _ => false

def isNewline : TokenKind → Bool
  | .newline => true
  | _ => false

def isEnd : TokenKind → Bool
  | .endOfInput => true
  | _ => false

end TokenKind

structure Token where
  kind : TokenKind
  position : Position
  spaced : Bool

end TabPilot
