import TabPilot.Proofs.Outcome
import TabPilot.Proofs.Script.Shape
import TabPilot.Proofs.Scope.Writing
import TabPilot.Proofs.Value.Floats

set_option autoImplicit false

/-! # The floats in the scopes

`Store.FloatsIn F` says that all floats in the variables of all scopes are in `F`. If `F` holds the
proper floats, evaluating an expression of a script in such a store gives floats in `F` only, and
so every assignment keeps the store as it is in this respect.
-/

namespace TabPilot

open Binary64 (properFloats)

/-! ## Expressions -/

/-- Whether whatever is read has only floats in a set. -/
def ReadsFloatsIn (F : Set Float) (read : Path → Option Value) : Prop :=
  ∀ p, ∀ v ∈ read p, v.FloatsIn F

theorem Value.IsLiteral.floatsIn {F : Set Float} (hF : properFloats ⊆ F) {v : Value}
    (h : v.IsLiteral) : v.FloatsIn F := by
  cases v with
  | null => exact floatsIn_null
  | bool b => exact floatsIn_bool b
  | int i => exact floatsIn_int i
  | float f => exact floatsIn_float.mpr (hF (Binary64.exactInt?_eq_none_iff.mp h))
  | string | array | object => exact h.elim

section Eval

variable {F : Set Float} {read : Path → Option Value}

mutual

theorem Expr.floatsIn_eval (hF : properFloats ⊆ F) (hread : ReadsFloatsIn F read) :
    ∀ (e : Expr), e.WellFormed → ∀ v, e.eval read = .ok v → v.FloatsIn F
  | .literal v, hwf, w, h => by
      rw [Expr.eval] at h
      cases h
      exact Value.IsLiteral.floatsIn hF hwf
  | .text content interpolated, _, w, h => by
      cases interpolated with
      | true =>
          rw [Expr.eval] at h
          split at h
          · cases h
            exact Value.floatsIn_string _
          · cases h
      | false =>
          rw [Expr.eval] at h
          cases h
          exact Value.floatsIn_string _
  | .array items, hwf, w, h => by
      rw [Expr.eval] at h
      obtain ⟨vs, hvs, rfl⟩ := exists_of_map_eq_ok h
      exact Value.floatsIn_array.mpr (Expr.floatsIn_evalAll hF hread items hwf vs hvs)
  | .object entries, hwf, w, h => by
      rw [Expr.eval] at h
      obtain ⟨vs, hvs, rfl⟩ := exists_of_map_eq_ok h
      exact Value.floatsIn_ofMembers (Expr.floatsIn_evalEntries hF hread entries hwf vs hvs)
  | .variable name steps, _, w, h => by
      rw [Expr.eval] at h
      obtain ⟨rest, -, rfl⟩ := exists_of_map_eq_ok h
      exact Value.floatsIn_getD_null (hread _)
  | .pattern p, _, w, h => by
      rw [Expr.eval] at h
      cases h
  | .negate operand, hwf, w, h => by
      rw [Expr.eval] at h
      split at h
      · exact Value.floatsIn_negated hF h
      · cases h
  | .binary op lhs rhs, hwf, w, h => by
      rw [Expr.eval] at h
      split at h
      · cases h
      · next a ha =>
          split at h
          · cases h
          · next b hb =>
              split at h
              · next hop =>
                  cases h
                  exact Value.floatsIn_binary hF (Expr.floatsIn_eval hF hread lhs hwf.1 a ha)
                    (Expr.floatsIn_eval hF hread rhs hwf.2 b hb) hop
              · cases h

theorem Expr.floatsIn_evalAll (hF : properFloats ⊆ F) (hread : ReadsFloatsIn F read) :
    ∀ (items : List Expr), itemsWellFormed items → ∀ vs, Expr.evalAll read items = .ok vs →
      ∀ v ∈ vs, v.FloatsIn F
  | [], _, vs, h => by
      rw [Expr.evalAll] at h
      cases h
      exact List.forall_mem_nil _
  | e :: rest, hwf, vs, h => by
      rw [Expr.evalAll] at h
      split at h
      · cases h
      · next v hv =>
          obtain ⟨others, hothers, rfl⟩ := exists_of_map_eq_ok h
          exact List.forall_mem_cons.mpr ⟨Expr.floatsIn_eval hF hread e hwf.1 v hv,
            Expr.floatsIn_evalAll hF hread rest hwf.2 others hothers⟩

theorem Expr.floatsIn_evalEntries (hF : properFloats ⊆ F) (hread : ReadsFloatsIn F read) :
    ∀ (entries : List (String × Expr)), entriesWellFormed entries →
      ∀ vs, Expr.evalEntries read entries = .ok vs → ∀ entry ∈ vs, entry.2.FloatsIn F
  | [], _, vs, h => by
      rw [Expr.evalEntries] at h
      cases h
      exact List.forall_mem_nil _
  | (name, e) :: rest, hwf, vs, h => by
      rw [Expr.evalEntries] at h
      split at h
      · cases h
      · next v hv =>
          obtain ⟨others, hothers, rfl⟩ := exists_of_map_eq_ok h
          exact List.forall_mem_cons.mpr ⟨Expr.floatsIn_eval hF hread e hwf.1 v hv,
            Expr.floatsIn_evalEntries hF hread rest hwf.2 others hothers⟩

end

end Eval

/-! ## Scopes -/

namespace Store

variable {F : Set Float} {st : Store} {s : ScopeId}

/-- Whether all floats in the variables of all scopes are in a set. -/
def FloatsIn (F : Set Float) (st : Store) : Prop := ∀ s, (st.vars s).All (Value.FloatsIn F)

theorem FloatsIn.get (h : st.FloatsIn F) (s : ScopeId) : ReadsFloatsIn F (st.get s) := by
  intro p v hv
  cases p with
  | nil => cases hv
  | cons first rest =>
      obtain ⟨t, -, hv⟩ := Option.bind_eq_some_iff.mp hv
      obtain ⟨held, hheld, hv⟩ := Option.bind_eq_some_iff.mp hv
      exact Value.floatsIn_lookup ((h t).get? hheld) hv

theorem FloatsIn.add (h : st.FloatsIn F) {vars : Record Value} (hvars : vars.All (Value.FloatsIn F))
    (outer : List ScopeId) : (st.add vars outer).1.FloatsIn F := by
  intro t
  by_cases ht : t = st.scopes.size
  · simpa [Store.vars, Store.add, ht] using hvars
  · have hold := h t
    simpa [Store.vars, Store.add, Array.getElem?_push, ht] using hold

theorem FloatsIn.setVars (h : st.FloatsIn F) {vars : Record Value}
    (hvars : vars.All (Value.FloatsIn F)) (s : ScopeId) : (st.setVars s vars).FloatsIn F := by
  intro t
  rw [vars_setVars]
  split
  · exact hvars
  · exact h t

theorem floatsIn_write {vars : Record Value} {p : Path} {v : Value}
    (hvars : vars.All (Value.FloatsIn F)) (hv : v.FloatsIn F) :
    (Store.write vars p v).1.All (Value.FloatsIn F) := by
  cases p with
  | nil => exact hvars
  | cons first rest =>
      have hheld : ((vars.get? first.memberName).getD .null).FloatsIn F :=
        Value.floatsIn_getD_null fun _ h => hvars.get? h
      exact hvars.insert (Value.floatsIn_write hheld hv)

theorem FloatsIn.setLocal (h : st.FloatsIn F) (s : ScopeId) (p : Path) {v : Value}
    (hv : v.FloatsIn F) : (st.setLocal s p v).1.FloatsIn F :=
  h.setVars (floatsIn_write (h s) hv) s

theorem FloatsIn.put (h : st.FloatsIn F) (reach : Reach) (s : ScopeId) (p : Path) {v : Value}
    (hv : v.FloatsIn F) : (st.put reach s p v).1.FloatsIn F := by
  cases reach with
  | owner => exact h.setLocal _ p hv
  | itself => exact h.setLocal s p hv

theorem floatsIn_erase? {vars vars' : Record Value} {p : Path}
    (hvars : vars.All (Value.FloatsIn F)) (h : erase? vars p = some vars') :
    vars'.All (Value.FloatsIn F) := by
  unfold erase? at h
  split at h
  · cases h
  · split at h
    · cases h
      exact hvars.erase
    · cases h
  · obtain ⟨v, hv, h⟩ := Option.bind_eq_some_iff.mp h
    obtain ⟨changed, hchanged, rfl⟩ := Option.map_eq_some_iff.mp h
    exact hvars.insert (Value.floatsIn_remove? (hvars.get? hv) hchanged)

theorem FloatsIn.unset (h : st.FloatsIn F) (s : ScopeId) (p : Path) :
    (st.unset s p).FloatsIn F := by
  rw [Store.unset]
  split
  · next t vars hfound =>
      obtain ⟨u, -, hu⟩ := List.exists_of_findSome?_eq_some hfound
      obtain ⟨vars', herase, heq⟩ := Option.map_eq_some_iff.mp hu
      obtain ⟨rfl, rfl⟩ := Prod.mk.inj heq
      exact h.setVars (floatsIn_erase? (h _) herase) _
  · exact h

/-! ## Assignments -/

theorem floatsIn_spread {targets : List Target} {values : List Value}
    (h : ∀ v ∈ values, v.FloatsIn F) : ∀ v ∈ spread targets values, v.FloatsIn F := by
  unfold spread
  split
  · split
    · exact Value.floatsIn_array.mp (List.forall_mem_singleton.mp h)
    · exact h
  · exact h

theorem FloatsIn.assignTo (hF : properFloats ⊆ F) (h : st.FloatsIn F) (reach : Reach)
    (s : ScopeId) (op : AssignOp) (targets : List Target) {values : List Value}
    (hvalues : ∀ v ∈ values, v.FloatsIn F) :
    (st.assignTo reach s op targets values).1.FloatsIn F := by
  induction targets generalizing st values with
  | nil => exact h
  | cons target targets ih =>
      have htail : ∀ v ∈ values.tail, v.FloatsIn F :=
        fun v hv => hvalues v (List.mem_of_mem_tail hv)
      cases target with
      | skip => exact ih h htail
      | «variable» v =>
          simp only [Store.assignTo]
          split
          · exact h
          · next p _ =>
              split
              · exact h
              · next new hnew =>
                  have hhead : (values.head?.getD .null).FloatsIn F :=
                    Value.floatsIn_getD_null fun _ hv => hvalues _ (List.mem_of_head? hv)
                  have hcombined : new.FloatsIn F :=
                    AssignOp.floatsIn_combine hF (h.get s p) hhead hnew
                  have hput := h.put reach s p hcombined
                  split
                  · next heq => rwa [heq] at hput
                  · next heq =>
                      rw [heq] at hput
                      exact ih hput htail

theorem FloatsIn.assign (hF : properFloats ⊆ F) (h : st.FloatsIn F) (reach : Reach) (s : ScopeId)
    {a : Assignment} (ha : a.WellFormed) : (st.assign reach s a).1.FloatsIn F := by
  rw [Store.assign]
  split
  · exact h
  · next values hvalues =>
      have hsources : itemsWellFormed a.sources := itemsWellFormed_iff.mpr ha.2.2
      exact h.assignTo hF reach s a.op a.targets
        (floatsIn_spread (Expr.floatsIn_evalAll hF (h.get s) a.sources hsources values hvalues))

theorem FloatsIn.unsetAll (h : st.FloatsIn F) (s : ScopeId) (vs : List Variable) :
    (st.unsetAll s vs).1.FloatsIn F := by
  induction vs generalizing st with
  | nil => exact h
  | cons v rest ih =>
      rw [Store.unsetAll]
      split
      · exact h
      · exact ih (h.unset s _)

theorem FloatsIn.bindItem (hF : properFloats ⊆ F) (h : st.FloatsIn F) (s : ScopeId)
    (targets : List Target) {item : Value} (hitem : item.FloatsIn F) :
    (st.bindItem s targets item).1.FloatsIn F := by
  have hsingle : ∀ v ∈ [item], v.FloatsIn F := List.forall_mem_singleton.mpr hitem
  unfold Store.bindItem
  refine h.assignTo hF .itself s .set targets ?_
  split
  · split
    · exact Value.floatsIn_array.mp hitem
    · exact hsingle
  · exact hsingle

theorem FloatsIn.setIndex (h : st.FloatsIn F) (s : ScopeId) (index : Nat) :
    (st.setIndex s index).FloatsIn F :=
  h.setLocal s _ (Value.floatsIn_int _)

end Store

end TabPilot
