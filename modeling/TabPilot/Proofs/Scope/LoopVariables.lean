import TabPilot.Proofs.Scope.Changes
import TabPilot.Proofs.Value.Ordered

set_option autoImplicit false

/-! # What a loop writes into its scope

A loop writes its counter and the parts of an item into its own scope and nowhere else
(`Store.SameBeside`). Targets that are different variables hold their parts after that
(`Store.bindItem_holds`), also when the counter has been written (`Record.Holds.counter`).
-/

namespace TabPilot

/-! ## The items of a value -/

/-- The items of a value that a loop goes through: nothing, the elements of a list, or the members
of an object as pairs, in the order of their names. -/
inductive Value.Lists : Value → List Value → Prop
  | null : Lists .null []
  | array (items : List Value) : Lists (.array items) items
  | object {members : Record Value} (order : members.Ordered) :
      Lists (.object members)
        (members.names.map fun name => .array [.string name, (members.get? name).getD .null])

theorem Value.items_of_lists {v : Value} {items : List Value} (h : v.Lists items) :
    v.items = .ok items := by
  cases h with
  | null => rfl
  | array => rfl
  | @object members order =>
      rw [order.map_names fun name v => Value.array [.string name, v.getD .null]]
      rfl

/-- What the targets of a loop get from an item: a list is spread over several targets. -/
def Value.parts (targets : List Target) : Value → List Value
  | .array parts => if 1 < targets.length then parts else [.array parts]
  | item => [item]

/-! ## Targets -/

def Target.name? : Target → Option String
  | .skip => none
  | .variable v => some v.name

/-- Whether the targets of a loop are different variables, without accessors, and none of them is
the counter. -/
structure Target.Distinct (targets : List Target) : Prop where
  plain : ∀ v, .variable v ∈ targets → v.accessors = []
  nodup : (targets.filterMap Target.name?).Nodup
  counter : "index" ∉ targets.filterMap Target.name?

/-- Whether the variables of targets hold values, target by target. Those for which there is no
value hold `null`. -/
def Record.Holds (vars : Record Value) (targets : List Target) (values : List Value) : Prop :=
  ∀ (i : Nat) (v : Variable), targets[i]? = some (.variable v) →
    vars.get? v.name = some (values[i]?.getD .null)

/-- The counter is no target. -/
theorem Record.Holds.counter {vars : Record Value} {targets : List Target} {values : List Value}
    (h : vars.Holds targets values) (distinct : Target.Distinct targets) (v : Value) :
    (vars.insert "index" v).Holds targets values := by
  intro i x hx
  have hmem : x.name ∈ targets.filterMap Target.name? :=
    List.mem_filterMap.mpr ⟨_, List.mem_of_getElem? hx, rfl⟩
  have hne : x.name ≠ "index" := fun heq => distinct.counter (heq ▸ hmem)
  rw [get?_insert, if_neg hne, h i x hx]

namespace Store

variable {st st' st'' : Store} {s : ScopeId}

/-- Nothing has changed but the variables of one scope. -/
def SameBeside (s : ScopeId) (st st' : Store) : Prop := ∀ x, x ≠ s → st'.vars x = st.vars x

theorem SameBeside.refl (s : ScopeId) (st : Store) : SameBeside s st st := fun _ _ => rfl

theorem SameBeside.trans (h : SameBeside s st st') (h' : SameBeside s st' st'') :
    SameBeside s st st'' :=
  fun x hx => (h' x hx).trans (h x hx)

theorem setLocal_sameBeside (st : Store) (s : ScopeId) (p : Path) (v : Value) :
    SameBeside s st (st.setLocal s p v).1 := by
  intro x hx
  show (st.setVars s _).vars x = _
  rw [vars_setVars, if_neg fun h => hx h.1]

/-- The variables of a scope after one of them was written. -/
theorem vars_setLocal (hs : s < st.scopes.size) (name : String) (v : Value) :
    (st.setLocal s [.key name] v).1.vars s = (st.vars s).insert name v := by
  show (st.setVars s _).vars s = _
  rw [vars_setVars, if_pos ⟨rfl, hs⟩]
  rfl

/-! ## The counter -/

theorem setIndex_sameBeside (st : Store) (s : ScopeId) (k : Nat) :
    SameBeside s st (st.setIndex s k) :=
  setLocal_sameBeside st s _ _

theorem vars_setIndex (hs : s < st.scopes.size) (k : Nat) :
    (st.setIndex s k).vars s = (st.vars s).insert "index" (.int k) :=
  vars_setLocal hs "index" _

/-! ## Items -/

theorem assignTo_sameBeside (st : Store) (s : ScopeId) (op : AssignOp) (targets : List Target)
    (values : List Value) : SameBeside s st (st.assignTo .itself s op targets values).1 := by
  induction targets generalizing st values with
  | nil => exact .refl s st
  | cons target targets ih =>
      cases target with
      | skip => exact ih _ _
      | «variable» v =>
          simp only [assignTo]
          split
          · exact .refl s st
          · next p _ =>
              split
              · exact .refl s st
              · next new _ =>
                  have hput : SameBeside s st (st.put .itself s p new).1 :=
                    setLocal_sameBeside st s p new
                  split
                  · next heq => rwa [heq] at hput
                  · next heq =>
                      rw [heq] at hput
                      exact hput.trans (ih _ _)

/-- Writing to a variable without accessors, with those that come after it. -/
theorem assignTo_plain {v : Variable} (plain : v.accessors = []) (st : Store) (s : ScopeId)
    (targets : List Target) (values : List Value) :
    st.assignTo .itself s .set (.variable v :: targets) values =
      (st.setLocal s [.key v.name] (values.head?.getD .null)).1.assignTo .itself s .set targets
        values.tail := by
  obtain ⟨name, accessors⟩ := v
  subst plain
  rfl

/-- Different variables are all written. -/
theorem assignTo_holds {targets : List Target} (hs : s < st.scopes.size)
    (plain : ∀ v, .variable v ∈ targets → v.accessors = [])
    (nodup : (targets.filterMap Target.name?).Nodup) (values : List Value) :
    (st.assignTo .itself s .set targets values).2 = none ∧
      ((st.assignTo .itself s .set targets values).1.vars s).Holds targets values ∧
      ∀ name ∉ targets.filterMap Target.name?,
        ((st.assignTo .itself s .set targets values).1.vars s).get? name =
          (st.vars s).get? name := by
  induction targets generalizing st values with
  | nil => exact ⟨rfl, nofun, fun _ _ => rfl⟩
  | cons target targets ih =>
      have plain' (v : Variable) (hv : .variable v ∈ targets) : v.accessors = [] :=
        plain v (List.mem_cons_of_mem target hv)
      have hparts (i : Nat) : values.tail[i]? = values[i + 1]? := by cases values <;> rfl
      cases target with
      | skip =>
          obtain ⟨hnone, hholds, hothers⟩ := ih hs plain' nodup values.tail
          refine ⟨hnone, fun i v hv => ?_, hothers⟩
          cases i with
          | zero => cases hv
          | succ i => rw [← hparts]; exact hholds i v hv
      | «variable» x =>
          obtain ⟨hfresh, hrest⟩ := List.nodup_cons.mp nodup
          rw [assignTo_plain (plain x List.mem_cons_self)]
          have hs' : s < (st.setLocal s [.key x.name] (values.head?.getD .null)).1.scopes.size :=
            Nat.lt_of_lt_of_le hs (setLocal_spares (Nat.zero_le s) _ _).size
          -- The names after `x` are different, so they leave its value alone.
          obtain ⟨hnone, hholds, hothers⟩ := ih hs' plain' hrest values.tail
          rw [vars_setLocal hs] at hothers
          refine ⟨hnone, fun i v hv => ?_, fun name hname => ?_⟩
          · cases i with
            | zero =>
                obtain rfl : x = v := Target.variable.inj (Option.some.inj hv)
                rw [hothers x.name hfresh, Record.get?_insert, if_pos rfl, List.head?_eq_getElem?]
            | succ i => rw [← hparts]; exact hholds i v hv
          · obtain ⟨hne, hname⟩ : name ≠ x.name ∧ name ∉ targets.filterMap Target.name? :=
              not_or.mp (mt List.mem_cons.mpr hname)
            rw [hothers name hname, Record.get?_insert, if_neg hne]

theorem bindItem_eq (st : Store) (s : ScopeId) (targets : List Target) (item : Value) :
    st.bindItem s targets item = st.assignTo .itself s .set targets (item.parts targets) := by
  cases item <;> rfl

theorem bindItem_sameBeside (st : Store) (s : ScopeId) (targets : List Target) (item : Value) :
    SameBeside s st (st.bindItem s targets item).1 := by
  rw [bindItem_eq]
  exact assignTo_sameBeside st s .set targets _

/-- **Different variables** are bound to the parts of an item. -/
theorem bindItem_holds {targets : List Target} (hs : s < st.scopes.size)
    (distinct : Target.Distinct targets) (item : Value) :
    (st.bindItem s targets item).2 = none ∧
      ((st.bindItem s targets item).1.vars s).Holds targets (item.parts targets) := by
  rw [bindItem_eq]
  obtain ⟨hnone, hholds, -⟩ := assignTo_holds hs distinct.plain distinct.nodup (item.parts targets)
  exact ⟨hnone, hholds⟩

end Store

end TabPilot
