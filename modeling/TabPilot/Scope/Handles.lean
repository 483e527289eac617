import TabPilot.Scope.Store

set_option autoImplicit false

/-! # Holding scopes

A scope lives as long as somebody holds it. The scopes inside it do not hold it: when nobody else
does, they are left without surroundings. `Handles` counts who holds what by handing out numbers,
several of which may stand for one scope.
-/

namespace TabPilot

/-- A store and the numbers handed out for its scopes; a number that was given back holds
nothing. -/
structure Handles where
  store : Store
  held : List (Option ScopeId)

namespace Handles

/-- One scope with the given variables, held under the number zero. -/
def ofRoot (vars : Record Value) : Handles :=
  let (store, root) := Store.empty.addRoot vars
  ⟨store, [some root]⟩

def scope? (h : Handles) (number : Nat) : Option ScopeId := (h.held[number]?).join

def hold (h : Handles) (s : ScopeId) : Handles × Nat :=
  ({ h with held := h.held ++ [some s] }, h.held.length)

/-- Makes a scope inside the one given and holds it. -/
def child (h : Handles) (s : ScopeId) (vars : Record Value) : Handles × Nat :=
  let (store, inner) := h.store.addChild s vars
  { h with store }.hold inner

/-- Gives a number back. The scope is forgotten when no other number stands for it. -/
def drop (h : Handles) (number : Nat) : Handles :=
  match h.scope? number with
  | none => h
  | some s =>
      let held := h.held.set number none
      let store := if held.contains (some s) then h.store else h.store.release s
      ⟨store, held⟩

def withStore (h : Handles) (store : Store) : Handles := { h with store }

end Handles

end TabPilot
