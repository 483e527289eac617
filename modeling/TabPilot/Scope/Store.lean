import TabPilot.Path.Access

set_option autoImplicit false

/-! # Scopes

A store holds the scopes of a run. Each scope has variables of its own and a list of the scopes
around it, nearest first; the scope followed by those is its chain. Reading searches the chain
outwards for the variable a path starts at. Writing goes to the nearest scope of the chain
that holds that variable, or to the scope itself when none does; `setLocal` always writes to
the scope itself.
-/

namespace TabPilot

abbrev ScopeId := Nat

/-- A scope: its own variables and the scopes around it, nearest first. -/
structure Scope where
  vars : Record Value
  outer : List ScopeId

structure Store where
  scopes : Array Scope

namespace Store

inductive Failure
  | emptyName
  | path (cause : Path.Failure)
  deriving Repr, DecidableEq

def Failure.message : Failure → String
  | .emptyName => "cannot assign to an empty variable name"
  | .path cause => cause.message

def empty : Store := ⟨#[]⟩

def vars (st : Store) (s : ScopeId) : Record Value :=
  match st.scopes[s]? with
  | some scope => scope.vars
  | none => Record.empty

/-- The scopes around a scope, nearest first. -/
def outer (st : Store) (s : ScopeId) : List ScopeId :=
  match st.scopes[s]? with
  | some scope => scope.outer
  | none => []

/-- A scope and the scopes around it, nearest first. -/
def chain (st : Store) (s : ScopeId) : List ScopeId := s :: st.outer s

/-- Adds a scope with the given variables and surroundings; its number is the size so far. -/
def add (st : Store) (vars : Record Value) (outer : List ScopeId) : Store × ScopeId :=
  let s := st.scopes.size
  (⟨st.scopes.push ⟨vars, outer⟩⟩, s)

def addRoot (st : Store) (vars : Record Value) : Store × ScopeId := st.add vars []

def addChild (st : Store) (parent : ScopeId) (vars : Record Value) : Store × ScopeId :=
  st.add vars (st.chain parent)

/-- Adds scopes one inside the other, beginning inside a chain; their numbers, outermost first. -/
def addNested (st : Store) (outer : List ScopeId) : List (Record Value) → Store × List ScopeId
  | [] => (st, [])
  | vars :: rest =>
      let (st, s) := st.add vars outer
      let (st, inner) := st.addNested (s :: outer) rest
      (st, s :: inner)

def setVars (st : Store) (s : ScopeId) (vars : Record Value) : Store :=
  ⟨st.scopes.modify s fun scope => { scope with vars }⟩

/-- Forgets a scope: those inside it lose it and everything around it. -/
def release (st : Store) (s : ScopeId) : Store :=
  ⟨st.scopes.map fun scope => { scope with outer := scope.outer.takeWhile (· ≠ s) }⟩

/-! ## Reading -/

/-- The nearest scope of a chain that holds a variable. -/
def owner? (st : Store) (s : ScopeId) (name : String) : Option ScopeId :=
  (st.chain s).find? fun t => (st.vars t).contains name

/-- The value at a path, in the nearest scope that holds the variable the path starts at. -/
def get (st : Store) (s : ScopeId) (p : Path) : Option Value :=
  match p with
  | [] => none
  | first :: rest =>
      (st.owner? s first.memberName).bind fun t =>
        ((st.vars t).get? first.memberName).bind fun v => v.lookup rest

def contains (st : Store) (s : ScopeId) (p : Path) : Bool := (st.get s p).isSome

/-- Whether a scope itself holds the variable that a path starts at. -/
def isLocal (st : Store) (s : ScopeId) (p : Path) : Bool :=
  match p.root? with
  | some name => (st.vars s).contains name
  | none => false

/-- The variables visible from a scope; those of nearer scopes cover those farther out. -/
def mapping (st : Store) (s : ScopeId) : Record Value :=
  (st.chain s).reverse.foldl (fun below t => below.overlay (st.vars t)) Record.empty

/-- The scope `levels` steps out, or the outermost one. -/
def level (st : Store) (s : ScopeId) (levels : Nat) : ScopeId :=
  match (st.chain s)[levels]? with
  | some t => t
  | none => (st.chain s).getLastD s

/-! ## Writing -/

/-- Writes into the variables of one scope. -/
def write (vars : Record Value) (p : Path) (new : Value) : Record Value × Option Failure :=
  match p with
  | [] => (vars, some .emptyName)
  | first :: rest =>
      let (v, failure) := ((vars.get? first.memberName).getD .null).write rest new
      (vars.insert first.memberName v, failure.map .path)

/-- Writes into a scope itself, whatever the scopes around it hold. -/
def setLocal (st : Store) (s : ScopeId) (p : Path) (new : Value) : Store × Option Failure :=
  let (vars, failure) := write (st.vars s) p new
  (st.setVars s vars, failure)

/-- Writes into the nearest scope that holds the variable a path starts at, or else into the
scope itself. The scope is found and written to in one turn. -/
def set (st : Store) (s : ScopeId) (p : Path) (new : Value) : Store × Option Failure :=
  st.setLocal ((p.root?.bind (st.owner? s)).getD s) p new

/-- The variables of one scope without what a path leads to. -/
def erase? (vars : Record Value) (p : Path) : Option (Record Value) :=
  match p with
  | [] => none
  | [first] =>
      if vars.contains first.memberName then some (vars.erase first.memberName) else none
  | first :: rest =>
      (vars.get? first.memberName).bind fun v =>
        (v.remove? rest).map fun changed => vars.insert first.memberName changed

/-- Takes away what a path leads to, in the nearest scope where it leads to something. -/
def unset (st : Store) (s : ScopeId) (p : Path) : Store :=
  let found := (st.chain s).findSome? fun t => (erase? (st.vars t) p).map fun vars => (t, vars)
  match found with
  | some (t, vars) => st.setVars t vars
  | none => st

end Store

end TabPilot
