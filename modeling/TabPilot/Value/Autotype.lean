import TabPilot.Value.Basic
import TabPilot.Decimal.Reader
import TabPilot.Text.Blank

set_option autoImplicit false

/-! # Values from their text

`autotype` reads a string that spells a truth value or a number as that value.
-/

namespace TabPilot.Value

/-- The value that a text spells: a truth value in any letter case, an integer of the signed
64-bit range, or a finite number; blanks around a number are ignored. -/
def ofText? (s : String) : Option Value :=
  let word := Decimal.asciiLower s
  if word = "true" then some (.bool true)
  else if word = "false" then some (.bool false)
  else
    let trimmed := Text.trim s
    match Decimal.signed64? trimmed, Decimal.float? trimmed with
    | some i, _ => some (.int i)
    | none, some f => if Binary64.isFinite f then some (ofFloat f) else none
    | none, none => none

/-- Replaces a string by the value it spells; every other value stays. -/
def autotype : Value → Value
  | .string s => (ofText? s).getD (.string s)
  | v => v

end TabPilot.Value
