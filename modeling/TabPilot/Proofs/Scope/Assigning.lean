import TabPilot.Proofs.Scope.LoopVariables

set_option autoImplicit false

/-! # Assigning to several variables

An assignment evaluates all its sources before it writes, but it combines and writes its targets
one after the other, each in the scope that holds the variable at that moment. The main statement,
`assign_at_once`, says that the order cannot be told when the targets are different variables
without accessors: each of them gets what the values before the assignment make of it, and no other
variable changes.
-/

namespace TabPilot

/-- Whether the targets are different variables, without accessors. -/
structure Target.Different (targets : List Target) : Prop where
  plain : ∀ v, .variable v ∈ targets → v.accessors = []
  nodup : (targets.filterMap Target.name?).Nodup

namespace Target.Different

variable {target : Target} {targets : List Target} {name : String}

/-- Different targets, one of them first. -/
theorem cons (h : Different (target :: targets)) :
    Different targets ∧
      (target = .skip ∨ ∃ name, target = .variable ⟨name, []⟩ ∧
        name ∉ targets.filterMap Target.name?) := by
  have hplain (v : Variable) (hv : .variable v ∈ targets) : v.accessors = [] :=
    h.plain v (List.mem_cons_of_mem target hv)
  cases target with
  | skip => exact ⟨⟨hplain, h.nodup⟩, .inl rfl⟩
  | «variable» x =>
      obtain ⟨name, accessors⟩ := x
      obtain rfl : accessors = [] := h.plain _ List.mem_cons_self
      obtain ⟨hfresh, hnodup⟩ := List.nodup_cons.mp h.nodup
      exact ⟨⟨hplain, hnodup⟩, .inr ⟨name, rfl, hfresh⟩⟩

theorem mem_of_name (h : Different targets) (hname : name ∈ targets.filterMap Target.name?) :
    .variable ⟨name, []⟩ ∈ targets := by
  obtain ⟨target, hmem, htarget⟩ := List.mem_filterMap.mp hname
  cases target with
  | skip => cases htarget
  | «variable» x =>
      obtain ⟨x, accessors⟩ := x
      obtain rfl : accessors = [] := h.plain _ hmem
      obtain rfl : x = name := Option.some.inj htarget
      exact hmem

/-- A variable stands at one position only. -/
theorem eq_of_name {i j : Nat} (h : Different targets)
    (hi : targets[i]? = some (.variable ⟨name, []⟩))
    (hj : targets[j]? = some (.variable ⟨name, []⟩)) : i = j := by
  induction targets generalizing i j with
  | nil => cases hi
  | cons target targets ih =>
      obtain ⟨hrest, hfirst⟩ := h.cons
      have hlater {k : Nat} (hk : targets[k]? = some (.variable ⟨name, []⟩)) :
          target ≠ .variable ⟨name, []⟩ := by
        have hmem : name ∈ targets.filterMap Target.name? :=
          List.mem_filterMap.mpr ⟨_, List.mem_of_getElem? hk, rfl⟩
        rintro rfl
        rcases hfirst with hskip | ⟨x, hx, hfresh⟩
        · cases hskip
        · cases hx
          exact hfresh hmem
      cases i with
      | zero =>
          cases j with
          | zero => rfl
          | succ j => exact absurd (Option.some.inj hi) (hlater hj)
      | succ i =>
          cases j with
          | zero => exact absurd (Option.some.inj hj) (hlater hi)
          | succ j => exact congrArg (· + 1) (ih hrest hi hj)

end Target.Different

namespace Assignment

variable {a : Assignment} {values : List Value} {read : Path → Option Value}

/-- Whether a value is what an assignment has for the target at a position, when `values` are those
of its sources: the item of a single list that is spread over several targets, or else the value of
the target's own source. Where there is none it is `null`. -/
structure Meant (a : Assignment) (values : List Value) (i : Nat) (v : Value) : Prop where
  item : ∀ items, values = [.array items] → 1 < a.targets.length → v = items[i]?.getD .null
  own : (∀ items, values = [.array items] → a.targets.length ≤ 1) → v = values[i]?.getD .null

/-- What an assignment makes of a variable, by what is read before anything is written. -/
def Makes (a : Assignment) (read : Path → Option Value) (name : String) (new : Value) : Prop :=
  ∃ (values : List Value) (i : Nat) (v : Value), Expr.evalAll read a.sources = .ok values ∧
    a.targets[i]? = some (.variable ⟨name, []⟩) ∧ a.Meant values i v ∧
    a.op.combine (read [.key name]) v = .ok new

theorem meant_iff {i : Nat} {v : Value} :
    a.Meant values i v ↔ v = (Store.spread a.targets values)[i]?.getD .null := by
  unfold Store.spread
  split
  · next items =>
      split
      · next hseveral =>
          constructor
          · intro h
            exact h.item items rfl hseveral
          · rintro rfl
            refine ⟨fun items' heq _ => ?_, fun hfew => ?_⟩
            · cases heq
              rfl
            · exact absurd hseveral (Nat.not_lt.mpr (hfew items rfl))
      · next hfew =>
          constructor
          · intro h
            exact h.own fun _ _ => Nat.not_lt.mp hfew
          · rintro rfl
            exact ⟨fun _ _ hseveral => absurd hseveral hfew, fun _ => rfl⟩
  · next hlist =>
      constructor
      · intro h
        exact h.own fun items heq => absurd heq (hlist items)
      · rintro rfl
        exact ⟨fun items heq => absurd heq (hlist items), fun _ => rfl⟩

/-- What is made of a variable, with the values as the assignment hands them out. -/
theorem makes_iff {name : String} {new : Value}
    (hvalues : Expr.evalAll read a.sources = .ok values) :
    a.Makes read name new ↔ ∃ i : Nat, a.targets[i]? = some (.variable ⟨name, []⟩) ∧
      a.op.combine (read [.key name]) ((Store.spread a.targets values)[i]?.getD .null) =
        .ok new := by
  constructor
  · rintro ⟨values', i, v, hvalues', htarget, hmeant, hcombine⟩
    obtain rfl := Except.ok.inj (hvalues'.symm.trans hvalues)
    rw [meant_iff] at hmeant
    exact ⟨i, htarget, hmeant ▸ hcombine⟩
  · rintro ⟨i, htarget, hcombine⟩
    exact ⟨values, i, _, hvalues, htarget, meant_iff.mpr rfl, hcombine⟩

end Assignment

namespace Store

variable {st st' : Store} {s : ScopeId} {reach : Reach} {op : AssignOp} {name : String}
  {targets : List Target} {values : List Value} {v : Value}

/-! ## One variable -/

/-- `st'` is `st` after a variable was written from the scope `s`: that scope reads the new value,
and under other names every scope reads what it read. -/
structure Binds (st st' : Store) (s : ScopeId) (name : String) (v : Value) : Prop where
  size : s < st'.scopes.size
  reads : st'.get s [.key name] = some v
  others : ∀ other, other ≠ name → ∀ u p, Path.root? p = some other → st'.get u p = st.get u p

/-- What is read at a path depends on the chain and on what its scopes hold under the name that the
path starts at. -/
theorem get_congr {p : Path} (root : p.root? = some name) (hchain : st'.chain s = st.chain s)
    (hheld : ∀ t, (st'.vars t).get? name = (st.vars t).get? name) : st'.get s p = st.get s p := by
  cases p with
  | nil => cases root
  | cons first rest =>
      obtain rfl : first.memberName = name := Option.some.inj root
      have howner : st'.owner? s first.memberName = st.owner? s first.memberName := by
        simp only [owner?, Record.contains, hchain, hheld]
      simp only [get, howner, hheld]

/-- A variable is written in a scope of the chain in front of which no scope holds it. -/
theorem setLocal_binds {t : ScopeId} (hs : s < st.scopes.size) (ht : t < st.scopes.size)
    (hfirst : ∃ nearer farther, st.chain s = nearer ++ t :: farther ∧
      ∀ u ∈ nearer, u ≠ t ∧ (st.vars u).contains name = false) :
    Binds st (st.setLocal t [.key name] v).1 s name v := by
  have hvars : (st.setLocal t [.key name] v).1.vars t = (st.vars t).insert name v :=
    vars_setLocal ht name v
  have hbeside := setLocal_sameBeside st t [.key name] v
  have hchain (u : ScopeId) : (st.setLocal t [.key name] v).1.chain u = st.chain u :=
    chain_setVars st t u _
  have hsize : (st.setLocal t [.key name] v).1.scopes.size = st.scopes.size := by
    simp [setLocal, setVars]
  refine ⟨hsize ▸ hs, ?_, ?_⟩
  · obtain ⟨nearer, farther, hs', hnearer⟩ := hfirst
    -- The name is still found where it was written, as no nearer scope holds it.
    have howner : (st.setLocal t [.key name] v).1.owner? s name = some t := by
      refine owner?_eq_some_iff.mpr ⟨nearer, farther, (hchain s).trans hs', ?_, fun u hu => ?_⟩
      · rw [hvars, Record.contains, Record.get?_insert, if_pos rfl]
        rfl
      · obtain ⟨hne, hnone⟩ := hnearer u hu
        rw [hbeside u hne]
        exact hnone
    rw [get_eq_lookup rfl howner, hvars]
    show ((st.vars t).insert name v).get? name >>= _ = _
    rw [Record.get?_insert, if_pos rfl]
    rfl
  · intro other hother u p root
    refine get_congr root (hchain u) fun x => ?_
    by_cases hx : x = t
    · rw [hx, hvars, Record.get?_insert, if_neg hother]
    · rw [hbeside x hx]

theorem put_binds (reach : Reach) (hs : s < st.scopes.size) (name : String) (v : Value) :
    Binds st (st.put reach s [.key name] v).1 s name v := by
  cases reach with
  | owner =>
      have target := writeScope_getD_owner? st s name
      exact setLocal_binds hs (target.lt_size hs) target.chain_eq
  | itself => exact setLocal_binds hs hs ⟨[], st.outer s, rfl, by simp⟩

/-! ## One after the other -/

/-- Writing a variable without accessors never fails; only combining can. -/
theorem assignTo_variable (st : Store) (reach : Reach) (s : ScopeId) (op : AssignOp)
    (name : String) (targets : List Target) (values : List Value) :
    st.assignTo reach s op (.variable ⟨name, []⟩ :: targets) values =
      match op.combine (st.get s [.key name]) (values.head?.getD .null) with
      | .error e => (st, some e)
      | .ok new =>
          (st.put reach s [.key name] new).1.assignTo reach s op targets values.tail := by
  have hpath : (⟨name, []⟩ : Variable).path (st.get s) = .ok [.key name] := rfl
  rw [assignTo, hpath]
  cases hcombine : op.combine (st.get s [.key name]) (values.head?.getD .null) with
  | error e => simp only [hcombine]
  | ok new =>
      have hput : st.put reach s [.key name] new = ((st.put reach s [.key name] new).1, none) := by
        cases reach <;> rfl
      simp only [hcombine]
      rw [hput]

theorem getElem?_tail (values : List Value) (i : Nat) : values.tail[i]? = values[i + 1]? := by
  cases values <;> rfl

section Different

variable (hs : s < st.scopes.size) (different : Target.Different targets)
include hs different

/-- **Each target** gets what the values before the first write make of it. -/
theorem reads_of_assignTo (h : st.assignTo reach s op targets values = (st', none)) :
    (∀ (i : Nat) (name : String), targets[i]? = some (.variable ⟨name, []⟩) →
      ∃ new, op.combine (st.get s [.key name]) (values[i]?.getD .null) = .ok new ∧
        st'.get s [.key name] = some new) ∧
    ∀ name, name ∉ targets.filterMap Target.name? → ∀ u p, Path.root? p = some name →
      st'.get u p = st.get u p := by
  induction targets generalizing st values with
  | nil =>
      obtain rfl : st = st' := (Prod.mk.inj h).1
      exact ⟨nofun, fun _ _ _ _ _ => rfl⟩
  | cons target targets ih =>
      rcases different.cons with ⟨hrest, rfl | ⟨x, rfl, hfresh⟩⟩
      · obtain ⟨hreads, hothers⟩ := ih hs hrest h
        refine ⟨fun i name hi => ?_, hothers⟩
        cases i with
        | zero => cases hi
        | succ i => rw [← getElem?_tail]; exact hreads i name hi
      · rw [assignTo_variable] at h
        cases hcombine : op.combine (st.get s [.key x]) (values.head?.getD .null) with
        | error e =>
            rw [hcombine] at h
            cases h
        | ok new =>
            rw [hcombine] at h
            have hbinds := put_binds reach hs x new
            obtain ⟨hreads, hothers⟩ := ih hbinds.size hrest h
            refine ⟨fun i name hi => ?_, fun name hname u p root => ?_⟩
            · cases i with
              | zero =>
                  obtain rfl : x = name := by simpa using hi
                  refine ⟨new, by rw [← List.head?_eq_getElem?]; exact hcombine, ?_⟩
                  -- None of the other targets is this variable.
                  rw [hothers x hfresh s _ rfl]
                  exact hbinds.reads
              | succ i =>
                  have hmem : name ∈ targets.filterMap Target.name? :=
                    List.mem_filterMap.mpr ⟨_, List.mem_of_getElem? hi, rfl⟩
                  have hne : name ≠ x := fun heq => hfresh (heq ▸ hmem)
                  rw [← getElem?_tail, ← hbinds.others name hne s _ rfl]
                  exact hreads i name hi
            · obtain ⟨hne, hname⟩ : name ≠ x ∧ name ∉ targets.filterMap Target.name? :=
                not_or.mp (mt List.mem_cons.mpr hname)
              rw [hothers name hname u p root]
              exact hbinds.others name hne u p root

/-- If every target can be combined with the value before the first write, all are written. -/
theorem assignTo_succeeds (h : ∀ (i : Nat) (name : String),
      targets[i]? = some (.variable ⟨name, []⟩) →
      ∃ new, op.combine (st.get s [.key name]) (values[i]?.getD .null) = .ok new) :
    (st.assignTo reach s op targets values).2 = none := by
  induction targets generalizing st values with
  | nil => rfl
  | cons target targets ih =>
      rcases different.cons with ⟨hrest, rfl | ⟨x, rfl, hfresh⟩⟩
      · refine ih hs hrest fun i name hi => ?_
        rw [getElem?_tail]
        exact h (i + 1) name hi
      · obtain ⟨new, hcombine⟩ := h 0 x rfl
        rw [← List.head?_eq_getElem?] at hcombine
        have hbinds := put_binds reach hs x new
        simp only [assignTo_variable, hcombine]
        refine ih hbinds.size hrest fun i name hi => ?_
        have hmem : name ∈ targets.filterMap Target.name? :=
          List.mem_filterMap.mpr ⟨_, List.mem_of_getElem? hi, rfl⟩
        have hne : name ≠ x := fun heq => hfresh (heq ▸ hmem)
        rw [getElem?_tail, hbinds.others name hne s _ rfl]
        exact h (i + 1) name hi

end Different

/-! ## All at once -/

/-- **Assigning is simultaneous.** Let the targets of an assignment be different variables without
accessors, with positions to skip among them. It succeeds just if its sources have values and each
variable can be combined with the value meant for it, as they are before the assignment. Then each
variable reads what these values make of it, however many targets were written before it, and under
every other name every scope reads what it read. -/
theorem assign_at_once {a : Assignment} (hs : s < st.scopes.size)
    (different : Target.Different a.targets) :
    ((st.assign reach s a).2 = none ↔ (∃ values, Expr.evalAll (st.get s) a.sources = .ok values) ∧
      ∀ name, .variable ⟨name, []⟩ ∈ a.targets → ∃ new, a.Makes (st.get s) name new) ∧
    ∀ st', st.assign reach s a = (st', none) →
      (∀ name, .variable ⟨name, []⟩ ∈ a.targets →
        ∃ new, a.Makes (st.get s) name new ∧ st'.get s [.key name] = some new) ∧
      ∀ name, .variable ⟨name, []⟩ ∉ a.targets → ∀ u p, Path.root? p = some name →
        st'.get u p = st.get u p := by
  cases hvalues : Expr.evalAll (st.get s) a.sources with
  | error e =>
      have hfails : st.assign reach s a = (st, some e) := by rw [assign, hvalues]
      simp [hfails]
  | ok values =>
      have hassign : st.assign reach s a =
          st.assignTo reach s a.op a.targets (spread a.targets values) := by rw [assign, hvalues]
      have hreads {st' : Store} (h : st.assign reach s a = (st', none)) :
          (∀ name, .variable ⟨name, []⟩ ∈ a.targets →
            ∃ new, a.Makes (st.get s) name new ∧ st'.get s [.key name] = some new) ∧
          ∀ name, .variable ⟨name, []⟩ ∉ a.targets → ∀ u p, Path.root? p = some name →
            st'.get u p = st.get u p := by
        obtain ⟨hreads, hothers⟩ := reads_of_assignTo hs different (hassign ▸ h)
        refine ⟨fun name hname => ?_, fun name hname => hothers name fun hmem => hname ?_⟩
        · obtain ⟨i, hi⟩ := List.mem_iff_getElem?.mp hname
          obtain ⟨new, hcombine, hnew⟩ := hreads i name hi
          exact ⟨new, (Assignment.makes_iff hvalues).mpr ⟨i, hi, hcombine⟩, hnew⟩
        · exact different.mem_of_name hmem
      refine ⟨⟨fun hnone => ?_, ?_⟩, fun st' h => hreads h⟩
      · refine ⟨⟨values, rfl⟩, fun name hname => ?_⟩
        obtain ⟨new, hnew, -⟩ := (hreads (Prod.ext rfl hnone)).1 name hname
        exact ⟨new, hnew⟩
      · rintro ⟨-, hmakes⟩
        rw [hassign]
        refine assignTo_succeeds hs different fun i name hi => ?_
        obtain ⟨new, hnew⟩ := hmakes name (List.mem_of_getElem? hi)
        obtain ⟨j, hj, hcombine⟩ := (Assignment.makes_iff hvalues).mp hnew
        rw [different.eq_of_name hi hj]
        exact ⟨new, hcombine⟩

/-- Two variables of two scopes get each other's values appended, spread from one list that is a
value short: the second is still appended what the first held before. -/
theorem assign_at_once_crossed :
    let st : Store := ⟨#[⟨⟨[("a", .int 1)]⟩, []⟩, ⟨⟨[("b", .int 2)]⟩, [0]⟩]⟩
    let a : Assignment :=
      ⟨[.variable ⟨"a", []⟩, .skip, .variable ⟨"b", []⟩, .variable ⟨"c", []⟩], .append,
        [.array [.variable "b" [], .literal (.int 9), .variable "a" []]], ⟨1, 1⟩⟩
    1 < st.scopes.size ∧ Target.Different a.targets ∧
      ∃ st', st.assign .owner 1 a = (st', none) ∧
        st'.get 1 [.key "b"] = some (.array [.int 2, .int 1]) := by
  intro st a
  have hs : 1 < st.scopes.size := by decide
  have different : Target.Different a.targets := by
    refine ⟨fun v hv => ?_, by decide⟩
    have hcases : v = ⟨"a", []⟩ ∨ v = ⟨"b", []⟩ ∨ v = ⟨"c", []⟩ := by simpa [a] using hv
    rcases hcases with rfl | rfl | rfl <;> rfl
  have hassign : st.assign .owner 1 a = ((st.assign .owner 1 a).1, none) := by rfl
  obtain ⟨new, hmakes, hnew⟩ :=
    ((assign_at_once hs different).2 _ hassign).1 "b" (List.mem_of_getElem? (i := 2) rfl)
  have hvalues : Expr.evalAll (st.get 1) a.sources =
      .ok [.array [.int 2, .int 9, .int 1]] := by rfl
  obtain ⟨i, hi, hcombine⟩ := (Assignment.makes_iff hvalues).mp hmakes
  obtain rfl : i = 2 := different.eq_of_name hi rfl
  obtain rfl : Value.array [.int 2, .int 1] = new := Except.ok.inj hcombine
  exact ⟨hs, different, _, hassign, hnew⟩

end Store

end TabPilot
