import TabPilot.Run.Expression

set_option autoImplicit false

/-! # Assignments

All sources are evaluated before anything is written; then the targets are written one after the
other, each combined with what it holds at that moment.
-/

namespace TabPilot

/-- The operator on values that an assignment operator applies, if it does. -/
def AssignOp.binary? : AssignOp → Option BinaryOp
  | .add => some .add
  | .subtract => some .subtract
  | .multiply => some .multiply
  | .divide => some .divide
  | .bitAnd => some .bitAnd
  | .bitOr => some .bitOr
  | .set | .append => none

/-- A list with a value added at its end. What is no list becomes one first; nothing and `null`
become the empty list. -/
def Value.appended (current : Option Value) (v : Value) : Value :=
  match current with
  | none | some .null => .array [v]
  | some (.array items) => .array (items ++ [v])
  | some other => .array [other, v]

/-- What an assignment writes, given what the target holds. -/
def AssignOp.combine (op : AssignOp) (current : Option Value) (v : Value) :
    Except RunFailure Value :=
  match op.binary? with
  | some op =>
      match Value.binary op (current.getD .null) v with
      | .ok r => .ok r
      | .error e => .error (.operator e)
  | none => .ok (if op = .append then Value.appended current v else v)

namespace Store

/-- Where a write goes: to the owner of the variable, or to the scope itself. -/
inductive Reach
  | owner
  | itself
  deriving Repr, DecidableEq

def put (st : Store) (reach : Reach) (s : ScopeId) (p : Path) (v : Value) :
    Store × Option RunFailure :=
  let (st, failure) :=
    match reach with
    | .owner => st.set s p v
    | .itself => st.setLocal s p v
  (st, failure.map .variable)

/-- Writes values to targets in turn; a target without a value gets `null`. -/
def assignTo (st : Store) (reach : Reach) (s : ScopeId) (op : AssignOp) :
    List Target → List Value → Store × Option RunFailure
  | [], _ => (st, none)
  | .skip :: targets, values => assignTo st reach s op targets values.tail
  | .variable v :: targets, values =>
      match v.path (st.get s) with
      | .error e => (st, some e)
      | .ok p =>
          match op.combine (st.get s p) (values.head?.getD .null) with
          | .error e => (st, some e)
          | .ok new =>
              match st.put reach s p new with
              | (st, some e) => (st, some e)
              | (st, none) => assignTo st reach s op targets values.tail

/-- The values for the targets of an assignment: a single list is spread over several targets. -/
def spread (targets : List Target) (values : List Value) : List Value :=
  match values with
  | [.array items] => if 1 < targets.length then items else values
  | _ => values

def assign (st : Store) (reach : Reach) (s : ScopeId) (a : Assignment) :
    Store × Option RunFailure :=
  match Expr.evalAll (st.get s) a.sources with
  | .error e => (st, some e)
  | .ok values => st.assignTo reach s a.op a.targets (spread a.targets values)

/-- Takes away what variables lead to, one after the other. -/
def unsetAll (st : Store) (s : ScopeId) : List Variable → Store × Option RunFailure
  | [] => (st, none)
  | v :: rest =>
      match v.path (st.get s) with
      | .error e => (st, some e)
      | .ok p => (st.unset s p).unsetAll s rest

/-- Binds the targets of a loop to an item, in the loop's own scope. A list is spread over
several targets. -/
def bindItem (st : Store) (s : ScopeId) (targets : List Target) (item : Value) :
    Store × Option RunFailure :=
  let values :=
    match item with
    | .array parts => if 1 < targets.length then parts else [item]
    | _ => [item]
  st.assignTo .itself s .set targets values

/-- Sets the counter of a loop in the loop's own scope. -/
def setIndex (st : Store) (s : ScopeId) (index : Nat) : Store :=
  (st.setLocal s [.key "index"] (.int index)).1

end Store

/-- The items that a loop goes through: the elements of a list, or the members of an object as
pairs. -/
def Value.items (v : Value) : Except RunFailure (List Value) :=
  match v with
  | .null => .ok []
  | .array items => .ok items
  | .object members =>
      .ok (members.entries.map fun (name, inner) => .array [.string name, inner])
  | other => .error (.badItems other.typeName)

def Value.loopCount (v : Value) : Except RunFailure Nat :=
  match v.unsigned? with
  | some n => .ok n
  | none => .error (.badCount v)

end TabPilot
