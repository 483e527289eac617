import TabPilot.Error
import TabPilot.Script.Grammar.Statement

set_option autoImplicit false

/-! # Scripts in files -/

namespace TabPilot.Script

/-- Whether a file of this name can be made in an empty directory. -/
def isCreatable (name : String) : Bool :=
  match (name.splitOn "/").reverse with
  | last :: before =>
      !last.isEmpty && last ≠ "." && last ≠ ".." && last.utf8ByteSize ≤ 255
        && !name.toList.contains '\x00' && before.all fun part => part = "." || part = ".."
  | [] => false

/-- The script in a file, from its bytes; there are none if the file cannot be read. Faults of
the script show the file's name. -/
def ofFile (name : String) (bytes : Option ByteArray) : Except Error Script :=
  match bytes with
  | none => .error (.io s!"cannot read {name}")
  | some bytes =>
      match String.fromUTF8? bytes with
      | none => .error (.io s!"{name} is not valid UTF-8")
      | some source =>
          match parse source with
          | .ok script => .ok (script.withFilename name)
          | .error fault => .error (.script (fault.withSource source (some name)))

end TabPilot.Script
