import TabPilot.Value.Basic
import TabPilot.Decimal.Layout

set_option autoImplicit false

/-! # JSON text of values

`json` writes a value without blanks, `prettyJson` with one element a line, indented by two
blanks. Members stand in the order of their names. Only what JSON requires is escaped, with
the two-character form where there is one.
-/

namespace TabPilot.Value

def hexDigit (n : Nat) : Char := (Nat.toDigits 16 n).headD '0'

/-- One character inside a quoted JSON string. -/
def escapeChar (c : Char) : List Char :=
  if c = '"' then ['\\', '"']
  else if c = '\\' then ['\\', '\\']
  else if c = '\n' then ['\\', 'n']
  else if c = '\r' then ['\\', 'r']
  else if c = '\t' then ['\\', 't']
  else if c.toNat = 8 then ['\\', 'b']
  else if c.toNat = 12 then ['\\', 'f']
  else if c.toNat < 32 then
    ['\\', 'u', '0', '0', hexDigit (c.toNat / 16), hexDigit (c.toNat % 16)]
  else [c]

def quoted (s : String) : List Char := '"' :: (s.toList.flatMap escapeChar ++ ['"'])

def scalarText : Value → List Char
  | .null => "null".toList
  | .bool b => (if b then "true" else "false").toList
  | .int i => (toString i).toList
  | .float f => (Decimal.Layout.number.text f).toList
  | .string s => quoted s
  | _ => []

def joinWith (separator : List Char) : List (List Char) → List Char
  | [] => []
  | [text] => text
  | text :: rest => text ++ separator ++ joinWith separator rest

mutual

def compactText : Value → List Char
  | .array items => '[' :: (joinWith [','] (compactItems items) ++ [']'])
  | .object ⟨entries⟩ => '\x7b' :: (joinWith [','] (compactEntries entries) ++ ['\x7d'])
  | v => scalarText v

def compactItems : List Value → List (List Char)
  | [] => []
  | v :: rest => compactText v :: compactItems rest

def compactEntries : List (String × Value) → List (List Char)
  | [] => []
  | (name, v) :: rest => (quoted name ++ ':' :: compactText v) :: compactEntries rest

end

def json (v : Value) : String := String.ofList (compactText v)

/-- Elements between brackets, one a line, at the given depth of indentation. -/
def block (opening closing : Char) (depth : Nat) (elements : List (List Char)) : List Char :=
  if elements.isEmpty then [opening, closing]
  else
    let margin := List.replicate (2 * depth) ' '
    let inner := '\n' :: List.replicate (2 * (depth + 1)) ' '
    opening :: (inner ++ joinWith (',' :: inner) elements ++ '\n' :: margin ++ [closing])

mutual

/-- The indented text of a value that stands at the given depth. -/
def prettyText (depth : Nat) : Value → List Char
  | .array items => block '[' ']' depth (prettyItems (depth + 1) items)
  | .object ⟨entries⟩ => block '\x7b' '\x7d' depth (prettyEntries (depth + 1) entries)
  | v => scalarText v

def prettyItems (depth : Nat) : List Value → List (List Char)
  | [] => []
  | v :: rest => prettyText depth v :: prettyItems depth rest

def prettyEntries (depth : Nat) : List (String × Value) → List (List Char)
  | [] => []
  | (name, v) :: rest =>
      (quoted name ++ ':' :: ' ' :: prettyText depth v) :: prettyEntries depth rest

end

def prettyJson (v : Value) : String := String.ofList (prettyText 0 v)

/-- The text of a value inside other text: strings as they are, `null` as nothing, everything
else as compact JSON. -/
def render : Value → String
  | .null => ""
  | .string s => s
  | v => v.json

end TabPilot.Value
