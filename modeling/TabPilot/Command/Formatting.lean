import TabPilot.Command.Set
import TabPilot.Text.Split
import TabPilot.Value.Autotype

set_option autoImplicit false

/-! # Commands on text

All but two of these commands change a string and give any other argument back as it is.
-/

namespace TabPilot.Formatting

def onValue (f : Value → Invocation → Except Error Value) : CommandBody :=
  .answering fun i =>
    match i.required with
    | .ok v => f v i
    | .error e => .error e

def onText (f : String → Invocation → Except Error Value) : CommandBody :=
  onValue fun v i =>
    match v with
    | .string s => f s i
    | other => .ok other

def changing (f : String → String) : CommandBody := onText fun s _ => .ok (.string (f s))

/-- A number of splits or replacements that is not negative. -/
def count (i : Invocation) : Except Error (Option Nat) :=
  match i.option? "count" with
  | none => .ok none
  | some v =>
      match v.asInteger "count" with
      | .error e => .error e
      | .ok n =>
          if 0 ≤ n then .ok (some n.toNat)
          else .error (.invalidArgument s!"count must not be negative, got {n}")

/-! ## Stripping -/

/-- Takes characters off a text: those given, or else blanks. -/
def strip (take : (Char → Bool) → List Char → List Char) : CommandBody :=
  onText fun s i =>
    (i.text "characters").map fun characters =>
      let out (c : Char) : Bool :=
        match characters with
        | some set => set.toList.contains c
        | none => Text.isBlank c
      .string (String.ofList (take out s.toList))

/-! ## Replacing -/

/-- Replaces matches of a pattern; a count of zero leaves the text as it is. -/
def replaceMatches (find replacement : String) (count : Option Nat) (s : String) :
    Except Error String :=
  match Pattern.compile find with
  | .ok p => .ok (p.replace s replacement count)
  | .error e => .error (.invalidArgument s!"Invalid pattern '{find}': {e.message find}")

def replace : CommandBody := onText fun s i => do
  let find ←
    match ← i.text "find" with
    | some find => pure find
    | none => throw (.invalidArgument "replace requires a 'find' option")
  let replacement := (← i.text "replace").getD ""
  let count ← count i
  let changed ←
    if ← i.flag "regex" false then replaceMatches find replacement count s
    else pure (Text.replace find replacement count s)
  return .string changed

/-! ## Splitting and joining -/

def split (atSeparator : List Char → Option Nat → List Char → List (List Char))
    (atBlanks : Option Nat → List Char → List (List Char)) : CommandBody :=
  onText fun s i => do
    let separator ← i.text "on"
    let count ← count i
    let parts ←
      match separator with
      | some "" => throw (.invalidArgument "empty separator")
      | some separator => pure (atSeparator separator.toList count s.toList)
      | none => pure (atBlanks count s.toList)
    return .array (parts.map fun part => .string (String.ofList part))

def join : CommandBody := onValue fun v i =>
  match v with
  | .array items =>
      (i.text "joiner").map fun joiner =>
        .string ((joiner.getD ",").intercalate (items.map Value.render))
  | other => .error (.invalidArgument s!"join requires a list, got {other.json}")

def commands : CommandSet where
  qualifier := "fmt"
  entries :=
    [⟨"autotype", .new .required [], onValue fun v _ => .ok v.autotype⟩,
      ⟨"strip", .new .required ["characters"], strip Text.trimBy⟩,
      ⟨"lstrip", .new .required ["characters"], strip List.dropWhile⟩,
      ⟨"rstrip", .new .required ["characters"], strip Text.trimEndBy⟩,
      ⟨"lower", .new .required [], changing Text.lower⟩,
      ⟨"upper", .new .required [], changing Text.upper⟩,
      ⟨"title", .new .required [], changing Text.title⟩,
      ⟨"replace", .new .required ["find", "replace", "count", "regex"], replace⟩,
      ⟨"split", .new .required ["on", "count"], split Text.splitOn Text.splitWords⟩,
      ⟨"rsplit", .new .required ["on", "count"], split Text.rsplitOn Text.rsplitWords⟩,
      ⟨"join", .new .required ["joiner"], join⟩]
  unknown name := onText fun _ _ => .error (CommandSet.noSuchCommand name)

end TabPilot.Formatting
