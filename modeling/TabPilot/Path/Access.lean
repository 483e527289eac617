import TabPilot.Path.Basic

set_option autoImplicit false

/-! # Following a path through a value

`child?` and `lookup` read, `write` writes and `remove?` takes away. Writing goes down step by
step: each step makes a place where there is none, by turning `null` into an object, by adding a
member, or by appending to a list when the index is one past its end. It stops at the first
segment for which no place can be made.
-/

namespace TabPilot

inductive Path.Failure
  | outOfRange (s : Segment)
  | onScalar (s : Segment)
  deriving Repr, DecidableEq

def Path.Failure.message : Path.Failure → String
  | .outOfRange s => s!"index {s.text} out of range"
  | .onScalar s => s!"cannot access key '{s.text}' on scalar"

namespace Value

def child? (v : Value) (s : Segment) : Option Value :=
  match v with
  | .object members => members.get? s.memberName
  | .array items => (s.position? items.length).bind fun i => items[i]?
  | _ => none

def lookup (v : Value) : Path → Option Value
  | [] => some v
  | s :: rest => (v.child? s).bind fun inner => inner.lookup rest

/-- Whether a segment is the index one past the end of a list. -/
def appendsTo (s : Segment) (length : Nat) : Bool :=
  match s with
  | .index i => i = length
  | .key _ => false

/-- A value with a place for something one step below: `null` becomes an object, a missing
member becomes `null`, and the index one past the end of a list appends `null`. -/
def withPlace (v : Value) (s : Segment) : Except Path.Failure Value :=
  match v with
  | .null => .ok (.object (Record.empty.insert s.memberName .null))
  | .object members =>
      if members.contains s.memberName then .ok v
      else .ok (.object (members.insert s.memberName .null))
  | .array items =>
      if (s.position? items.length).isSome then .ok v
      else if appendsTo s items.length then .ok (.array (items ++ [.null]))
      else .error (.outOfRange s)
  | _ => .error (.onScalar s)

/-- The value with the value one step below replaced. -/
def replaceChild (v : Value) (s : Segment) (inner : Value) : Value :=
  match v with
  | .object members => .object (members.insert s.memberName inner)
  | .array items =>
      match s.position? items.length with
      | some i => .array (items.set i inner)
      | none => v
  | _ => v

/-- Writes `new` at the end of a path, step by step; where a step fails the value is given as the
steps before left it. -/
def write (v : Value) (p : Path) (new : Value) : Value × Option Path.Failure :=
  match p with
  | [] => (new, none)
  | s :: rest =>
      match v.withPlace s with
      | .error e => (v, some e)
      | .ok ready =>
          let (inner, failure) := ((ready.child? s).getD .null).write rest new
          (ready.replaceChild s inner, failure)

/-- The value without what a path leads to; `none` if it leads nowhere. -/
def remove? (v : Value) (p : Path) : Option Value :=
  match p with
  | [] => none
  | [leaf] =>
      match v with
      | .object members =>
          if members.contains leaf.memberName then some (.object (members.erase leaf.memberName))
          else none
      | .array items => (leaf.position? items.length).map fun i => .array (items.eraseIdx i)
      | _ => none
  | s :: rest =>
      match v with
      | .object members =>
          (members.get? s.memberName).bind fun inner =>
            (inner.remove? rest).map fun changed =>
              .object (members.insert s.memberName changed)
      | .array items =>
          (s.position? items.length).bind fun i =>
            (items[i]?).bind fun inner =>
              (inner.remove? rest).map fun changed => .array (items.set i changed)
      | _ => none

end Value

end TabPilot
