import TabPilot.Path.Basic
import TabPilot.Value.Json

set_option autoImplicit false

/-! # Templates

A template is text with places to fill in: `{path}` stands for the value at a path, a doubled
brace for the brace itself.
-/

namespace TabPilot.Template

inductive Failure
  | unterminated (name : String)
  | undefined (name : String)
  deriving Repr, DecidableEq

def Failure.message : Failure → String
  | .unterminated name => "Unterminated placeholder '\x7b" ++ name ++ "' in string pattern"
  | .undefined name => "Use of undefined variable '" ++ name ++ "' in string pattern"

def place (read : Path → Option Value) (inner : List Char) : Except Failure (List Char) :=
  let name := Text.trimBy Text.isBlank inner
  match read (Path.ofChars name) with
  | some v => .ok v.render.toList
  | none => .error (.undefined (String.ofList (name.dropWhile (· = '$'))))

mutual

/-- Fills in a template outside placeholders. -/
def fillText (read : Path → Option Value) : List Char → Except Failure (List Char)
  | [] => .ok []
  | '\x7b' :: '\x7b' :: rest => (fillText read rest).map ('\x7b' :: ·)
  | '\x7d' :: '\x7d' :: rest => (fillText read rest).map ('\x7d' :: ·)
  | '\x7b' :: rest => fillPlace read [] rest
  | c :: rest => (fillText read rest).map (c :: ·)

/-- Fills in a template inside a placeholder; `inner` is what was read of it. -/
def fillPlace (read : Path → Option Value) (inner : List Char) :
    List Char → Except Failure (List Char)
  | [] => .error (.unterminated (String.ofList inner))
  | c :: rest =>
      if c = '\x7d' then
        match place read inner with
        | .ok text => (fillText read rest).map (text ++ ·)
        | .error e => .error e
      else fillPlace read (inner ++ [c]) rest

end

/-- Fills in a template from what `read` finds at each path. -/
def fill (read : Path → Option Value) (template : String) : Except Failure String :=
  (fillText read template.toList).map String.ofList

end TabPilot.Template
