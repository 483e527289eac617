import TabPilot.Command.Signature
import TabPilot.Error
import TabPilot.Time

set_option autoImplicit false

/-! # The call of a command

An `Invocation` holds the argument and the options of a call, and the scope it was written in. An
option that is `null` counts as not given.
-/

namespace TabPilot

structure Invocation where
  argument : Option Value
  options : Record Value
  scope : ScopeId

/-! ## Numbers and durations -/

/-- A value as an integer of the signed 64-bit range: a number is cut at the point and held
within the range. -/
def Value.asInteger (name : String) (v : Value) : Except Error Int :=
  match v.signed?, v.toFloat? with
  | some i, _ => .ok i
  | none, some f => .ok (Binary64.clampToInt64 f)
  | none, none => .error (.invalidArgument s!"'{name}' must be a number, got {v.json}")

def roundHalfEven (n d : Nat) : Nat :=
  let q := n / d
  let r := n % d
  if 2 * r < d || (2 * r = d && q % 2 = 0) then q else q + 1

def nanosPerSecond : Nat := 1000000000

/-- The duration of so many seconds, to the nearest nanosecond. There is none for negative
numbers and from `2 ^ 64` seconds on. -/
def Duration.ofSeconds? (f : Float) : Option Duration :=
  match Binary64.parts f with
  | none => none
  | some p =>
      if p.negative && p.mantissa ≠ 0 then none
      else if Word.count ≤ p.magnitude then none
      else
        let scaled := p.mantissa * nanosPerSecond
        some (if 0 ≤ p.exponent then scaled * twoTo p.exponent.toNat
          else roundHalfEven scaled (twoTo (-p.exponent).toNat))

def Duration.toSeconds (d : Duration) : Float :=
  Binary64.ofInt (d / nanosPerSecond : Nat) +
    Binary64.ofInt (d % nanosPerSecond : Nat) / Binary64.ofInt nanosPerSecond

def Value.asMillis (name : String) (v : Value) : Except Error Duration :=
  let duration :=
    v.toFloat?.bind fun f => if 0.0 ≤ f then Duration.ofSeconds? (f / 1000.0) else none
  match duration with
  | some d => .ok d
  | none =>
      .error (.invalidArgument
        s!"'{name}' must be a non-negative number of milliseconds, got {v.json}")

namespace Invocation

/-- An option that is given and not `null`. -/
def option? (i : Invocation) (name : String) : Option Value :=
  match i.options.get? name with
  | some .null => none
  | other => other

def required (i : Invocation) : Except Error Value :=
  match i.argument with
  | some v => .ok v
  | none => .error (.invalidArgument "an argument is required")

def requiredText (i : Invocation) : Except Error String :=
  match i.required with
  | .error e => .error e
  | .ok (.string s) => .ok s
  | .ok v => .error (.invalidArgument s!"expected a string argument, got {v.json}")

def text (i : Invocation) (name : String) : Except Error (Option String) :=
  match i.option? name with
  | none => .ok none
  | some (.string s) => .ok (some s)
  | some v =>
      .error (.invalidArgument s!"option '{name}' must be a string, got {v.json}")

def flag (i : Invocation) (name : String) (default : Bool) : Except Error Bool :=
  match i.option? name with
  | none => .ok default
  | some (.bool b) => .ok b
  | some v =>
      .error (.invalidArgument s!"option '{name}' must be true or false, got {v.json}")

def integer (i : Invocation) (name : String) (default : Int) : Except Error Int :=
  match i.option? name with
  | none => .ok default
  | some v => v.asInteger name

def millis (i : Invocation) (name : String) (default : Nat) : Except Error Duration :=
  match i.option? name with
  | none => .ok (Duration.ofMillis default)
  | some v => v.asMillis name

end Invocation

end TabPilot
