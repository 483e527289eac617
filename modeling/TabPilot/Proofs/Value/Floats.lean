import TabPilot.Proofs.Value.WholeNumbers
import TabPilot.Path.Access
import TabPilot.Run.Assignment

set_option autoImplicit false

/-! # The floats in a value

`HasFloat` says that a float stands somewhere in a value, at any depth, and `FloatsIn F` that all
floats that stand in it are in the set `F`. What arithmetic and normalisation make are proper
floats: those that are no small whole number. So every operation on values stays within a set `F`
that holds the proper floats, and the lemmas here say so, one for each operation.
-/

namespace TabPilot

/-- The numbers that are no integers of magnitude at most `2 ^ 53`. -/
def Binary64.properFloats : Set Float := {f | ¬ IsSmallWhole f}

/-! ## Members of records -/

namespace Record

variable {α : Type} {P : α → Prop} {r : Record α} {name : String} {v : α}

def All (P : α → Prop) (r : Record α) : Prop := ∀ entry ∈ r.entries, P entry.2

theorem all_empty : (empty : Record α).All P := List.forall_mem_nil _

theorem All.get? (h : r.All P) (hv : r.get? name = some v) : P v := by
  obtain ⟨nearer, farther, hentries, -⟩ := List.lookup_eq_some_iff.mp hv
  exact h (name, v) (by simp [hentries])

theorem mem_insertEntry {entries : List (String × α)} {entry : String × α}
    (h : entry ∈ insertEntry name v entries) : entry = (name, v) ∨ entry ∈ entries := by
  induction entries with
  | nil => exact .inl (List.mem_singleton.mp h)
  | cons first rest ih =>
      rw [insertEntry] at h
      split at h
      · exact List.mem_cons.mp h
      · rcases List.mem_cons.mp h with rfl | h
        · exact .inr List.mem_cons_self
        · exact (ih h).imp_right (List.mem_cons_of_mem _)

theorem mem_replaceEntry {entries : List (String × α)} {entry : String × α}
    (h : entry ∈ replaceEntry name v entries) : entry = (name, v) ∨ entry ∈ entries := by
  induction entries with
  | nil => cases h
  | cons first rest ih =>
      rw [replaceEntry] at h
      split at h
      · exact (List.mem_cons.mp h).imp_right (List.mem_cons_of_mem _)
      · rcases List.mem_cons.mp h with rfl | h
        · exact .inr List.mem_cons_self
        · exact (ih h).imp_right (List.mem_cons_of_mem _)

theorem All.insert (h : r.All P) (hv : P v) : (r.insert name v).All P := by
  intro entry hentry
  have hcases : entry = (name, v) ∨ entry ∈ r.entries := by
    unfold Record.insert at hentry
    split at hentry
    · exact mem_replaceEntry hentry
    · exact mem_insertEntry hentry
  rcases hcases with rfl | hentry
  · exact hv
  · exact h entry hentry

theorem All.erase (h : r.All P) : (r.erase name).All P :=
  fun entry hentry => h entry (List.mem_filter.mp hentry).1

theorem all_ofList {entries : List (String × α)} (h : ∀ entry ∈ entries, P entry.2) :
    (ofList entries).All P := by
  have hfold : ∀ (rest : List (String × α)) (r : Record α), r.All P →
      (∀ entry ∈ rest, P entry.2) →
      (rest.foldl (fun r entry => r.insert entry.1 entry.2) r).All P := by
    intro rest
    induction rest with
    | nil => intro r hr _; exact hr
    | cons entry rest ih =>
        intro r hr hrest
        obtain ⟨hentry, hrest⟩ := List.forall_mem_cons.mp hrest
        exact ih _ (hr.insert hentry) hrest
  exact hfold entries _ all_empty h

end Record

/-! ## Floats inside values -/

/-- A float stands in a value, at whatever depth. -/
inductive Value.HasFloat (f : Float) : Value → Prop
  | here : HasFloat f (.float f)
  | item {items : List Value} {v : Value} (mem : v ∈ items) (h : HasFloat f v) :
      HasFloat f (.array items)
  | member {members : Record Value} {entry : String × Value} (mem : entry ∈ members.entries)
      (h : HasFloat f entry.2) : HasFloat f (.object members)

def Value.FloatsIn (F : Set Float) (v : Value) : Prop := ∀ f, v.HasFloat f → f ∈ F

namespace Value

open Binary64 (properFloats)

variable {F F' : Set Float} {v w : Value}

theorem FloatsIn.mono (hsub : F ⊆ F') (h : v.FloatsIn F) : v.FloatsIn F' :=
  fun f hf => hsub (h f hf)

@[simp] theorem floatsIn_null : Value.null.FloatsIn F := fun _ h => nomatch h

@[simp] theorem floatsIn_bool (b : Bool) : (Value.bool b).FloatsIn F := fun _ h => nomatch h

@[simp] theorem floatsIn_int (i : Int) : (Value.int i).FloatsIn F := fun _ h => nomatch h

@[simp] theorem floatsIn_string (s : String) : (Value.string s).FloatsIn F :=
  fun _ h => nomatch h

@[simp] theorem floatsIn_float {f : Float} : (Value.float f).FloatsIn F ↔ f ∈ F := by
  constructor
  · exact fun h => h f .here
  · rintro h f' ⟨⟩
    exact h

@[simp] theorem floatsIn_array {items : List Value} :
    (Value.array items).FloatsIn F ↔ ∀ v ∈ items, v.FloatsIn F := by
  constructor
  · exact fun h v hv f hf => h f (.item hv hf)
  · rintro h f (_ | ⟨hv, hf⟩)
    exact h _ hv f hf

@[simp] theorem floatsIn_object {members : Record Value} :
    (Value.object members).FloatsIn F ↔ members.All (FloatsIn F) := by
  constructor
  · exact fun h entry hentry f hf => h f (.member hentry hf)
  · rintro h f (_ | _ | ⟨hentry, hf⟩)
    exact h _ hentry f hf

theorem floatsIn_getD_null {v : Option Value} (h : ∀ w ∈ v, w.FloatsIn F) :
    (v.getD .null).FloatsIn F := by
  cases v with
  | none => exact floatsIn_null
  | some w => exact h w rfl

theorem floatsIn_ofMembers {members : List (String × Value)}
    (h : ∀ entry ∈ members, entry.2.FloatsIn F) : (ofMembers members).FloatsIn F :=
  floatsIn_object.mpr (Record.all_ofList h)

/-! ## Normalising and arithmetic -/

/-- A number that was computed becomes an integer if it is one. -/
theorem floatsIn_ofFloat (hF : properFloats ⊆ F) (f : Float) : (ofFloat f).FloatsIn F := by
  unfold ofFloat
  split
  · exact floatsIn_int _
  · next hnone =>
      split
      · exact floatsIn_float.mpr (hF (Binary64.exactInt?_eq_none_iff.mp hnone))
      · exact floatsIn_null

mutual

/-- Normalising leaves no small whole number in binary64, at whatever depth. -/
theorem floatsIn_normalize (hF : properFloats ⊆ F) : ∀ v : Value, (normalize v).FloatsIn F
  | .null | .bool _ | .int _ | .string _ => by simp [normalize]
  | .float f => by
      rw [normalize]
      exact floatsIn_ofFloat hF f
  | .array items => by
      rw [normalize, floatsIn_array]
      exact floatsIn_normalizeItems hF items
  | .object ⟨entries⟩ => by
      rw [normalize, floatsIn_object]
      exact floatsIn_normalizeEntries hF entries

theorem floatsIn_normalizeItems (hF : properFloats ⊆ F) :
    ∀ (items : List Value), ∀ v ∈ normalizeItems items, v.FloatsIn F
  | [] => List.forall_mem_nil _
  | v :: rest => by
      rw [normalizeItems, List.forall_mem_cons]
      exact ⟨floatsIn_normalize hF v, floatsIn_normalizeItems hF rest⟩

theorem floatsIn_normalizeEntries (hF : properFloats ⊆ F) :
    ∀ (entries : List (String × Value)), ∀ entry ∈ normalizeEntries entries, entry.2.FloatsIn F
  | [] => List.forall_mem_nil _
  | (name, v) :: rest => by
      rw [normalizeEntries, List.forall_mem_cons]
      exact ⟨floatsIn_normalize hF v, floatsIn_normalizeEntries hF rest⟩

end

/-! ## Operators -/

theorem floatsIn_repeated {s : String} {count : Int} (h : repeated s count = .ok v) :
    v.FloatsIn F := by
  unfold repeated at h
  split at h
  · cases h
    exact floatsIn_string _
  · cases h

/-- Only joining two lists hands values on. -/
theorem floatsIn_sequence {op : BinaryOp} {lhs rhs : Value} (hlhs : lhs.FloatsIn F)
    (hrhs : rhs.FloatsIn F) (h : sequence op lhs rhs = .ok v) : v.FloatsIn F := by
  unfold sequence at h
  dsimp only at h
  split at h
  · cases h
    exact floatsIn_string _
  · cases h
    exact floatsIn_array.mpr
      (List.forall_mem_append.mpr ⟨floatsIn_array.mp hlhs, floatsIn_array.mp hrhs⟩)
  · split at h
    · exact floatsIn_repeated h
    · cases h
  · split at h
    · exact floatsIn_repeated h
    · cases h
  · cases h

theorem floatsIn_bitwise {op : BinaryOp} {lhs rhs : Value} (h : bitwise op lhs rhs = .ok v) :
    v.FloatsIn F := by
  unfold bitwise at h
  split at h
  · cases h
    exact floatsIn_bool _
  · split at h
    · cases h
      exact floatsIn_int _
    · cases h

section Arithmetic

variable (hF : properFloats ⊆ F)
include hF

theorem floatsIn_finite {op : BinaryOp} {f : Float} (h : finite op f = .ok v) :
    v.FloatsIn F := by
  unfold finite at h
  split at h
  · cases h
    exact floatsIn_ofFloat hF f
  · cases h

theorem floatsIn_inexact {op : BinaryOp} {x y : Float} (h : inexact op x y = .ok v) :
    v.FloatsIn F := by
  cases op with
  | add | subtract | multiply | power => exact floatsIn_finite hF h
  | divide | modulo =>
      simp only [inexact] at h
      split at h
      · cases h
      · exact floatsIn_finite hF h
  | bitAnd | bitOr | bitXor => cases h

theorem floatsIn_arithmetic {op : BinaryOp} {a b : Numeric} (h : arithmetic op a b = .ok v) :
    v.FloatsIn F := by
  unfold arithmetic at h
  split at h
  · split at h
    · cases h
      exact floatsIn_int _
    · exact floatsIn_inexact hF h
  · exact floatsIn_inexact hF h

theorem floatsIn_binary {op : BinaryOp} {lhs rhs : Value} (hlhs : lhs.FloatsIn F)
    (hrhs : rhs.FloatsIn F) (h : binary op lhs rhs = .ok v) : v.FloatsIn F := by
  unfold binary at h
  split at h
  · exact floatsIn_bitwise h
  · exact floatsIn_bitwise h
  · exact floatsIn_bitwise h
  · split at h
    · exact floatsIn_arithmetic hF h
    · exact floatsIn_sequence hlhs hrhs h

theorem floatsIn_negated (h : v.negated = .ok w) : w.FloatsIn F := by
  unfold negated at h
  split at h
  · next hnegate =>
      cases h
      unfold negate? at hnegate
      split at hnegate
      · cases hnegate
        exact floatsIn_int _
      · obtain ⟨f, -, rfl⟩ := Option.map_eq_some_iff.mp hnegate
        exact floatsIn_ofFloat hF _
  · cases h

end Arithmetic

/-! ## Lists -/

theorem floatsIn_appended {current : Option Value} (hcurrent : ∀ u ∈ current, u.FloatsIn F)
    (hv : v.FloatsIn F) : (appended current v).FloatsIn F := by
  unfold appended
  split
  · simpa using hv
  · simpa using hv
  · next items =>
      have hitems : (Value.array items).FloatsIn F := hcurrent _ rfl
      exact floatsIn_array.mpr
        (List.forall_mem_append.mpr ⟨floatsIn_array.mp hitems, List.forall_mem_singleton.mpr hv⟩)
  · next other _ _ =>
      exact floatsIn_array.mpr
        (List.forall_mem_cons.mpr ⟨hcurrent other rfl, List.forall_mem_singleton.mpr hv⟩)

theorem floatsIn_items {items : List Value} (hv : v.FloatsIn F) (h : v.items = .ok items) :
    ∀ item ∈ items, item.FloatsIn F := by
  unfold Value.items at h
  split at h
  · cases h
    exact List.forall_mem_nil _
  · cases h
    exact floatsIn_array.mp hv
  · next members =>
      cases h
      intro item hitem
      obtain ⟨entry, hentry, rfl⟩ := List.mem_map.mp hitem
      have hinner : entry.2.FloatsIn F := floatsIn_object.mp hv entry hentry
      simpa using hinner
  · cases h

/-! ## Paths -/

theorem floatsIn_child? {s : Segment} (hv : v.FloatsIn F) (h : v.child? s = some w) :
    w.FloatsIn F := by
  unfold child? at h
  split at h
  · exact (floatsIn_object.mp hv).get? h
  · obtain ⟨i, -, hi⟩ := Option.bind_eq_some_iff.mp h
    exact floatsIn_array.mp hv w (List.mem_of_getElem? hi)
  · cases h

theorem floatsIn_lookup {p : Path} (hv : v.FloatsIn F) (h : v.lookup p = some w) :
    w.FloatsIn F := by
  induction p generalizing v with
  | nil =>
      cases h
      exact hv
  | cons s rest ih =>
      obtain ⟨inner, hinner, h⟩ := Option.bind_eq_some_iff.mp h
      exact ih (floatsIn_child? hv hinner) h

/-- Making a place adds nothing but `null`. -/
theorem floatsIn_withPlace {s : Segment} (hv : v.FloatsIn F) (h : v.withPlace s = .ok w) :
    w.FloatsIn F := by
  unfold withPlace at h
  split at h
  · cases h
    exact floatsIn_object.mpr (Record.all_empty.insert floatsIn_null)
  · split at h
    · cases h
      exact hv
    · cases h
      exact floatsIn_object.mpr ((floatsIn_object.mp hv).insert floatsIn_null)
  · split at h
    · cases h
      exact hv
    · split at h
      · cases h
        exact floatsIn_array.mpr
          (List.forall_mem_append.mpr ⟨floatsIn_array.mp hv, by simp⟩)
      · cases h
  · cases h

theorem floatsIn_set {items : List Value} (hitems : ∀ item ∈ items, item.FloatsIn F)
    (hw : w.FloatsIn F) (i : Nat) : (Value.array (items.set i w)).FloatsIn F := by
  rw [floatsIn_array]
  intro item hitem
  rcases List.mem_or_eq_of_mem_set hitem with hold | rfl
  · exact hitems item hold
  · exact hw

theorem floatsIn_replaceChild {s : Segment} (hv : v.FloatsIn F) (hw : w.FloatsIn F) :
    (v.replaceChild s w).FloatsIn F := by
  unfold replaceChild
  split
  · exact floatsIn_object.mpr ((floatsIn_object.mp hv).insert hw)
  · split
    · exact floatsIn_set (floatsIn_array.mp hv) hw _
    · exact hv
  · exact hv

theorem floatsIn_write {p : Path} {new : Value} (hv : v.FloatsIn F) (hnew : new.FloatsIn F) :
    (v.write p new).1.FloatsIn F := by
  induction p generalizing v with
  | nil => exact hnew
  | cons s rest ih =>
      rw [Value.write]
      split
      · exact hv
      · next ready hready =>
          have hplace : ready.FloatsIn F := floatsIn_withPlace hv hready
          have hchild : ((ready.child? s).getD .null).FloatsIn F :=
            floatsIn_getD_null fun _ hinner => floatsIn_child? hplace hinner
          exact floatsIn_replaceChild hplace (ih hchild)

theorem floatsIn_remove? {p : Path} (hv : v.FloatsIn F) (h : v.remove? p = some w) :
    w.FloatsIn F := by
  induction p generalizing v w with
  | nil => cases h
  | cons s rest ih =>
      cases rest with
      | nil =>
          cases v with
          | object members =>
              simp only [remove?] at h
              split at h
              · cases h
                exact floatsIn_object.mpr (floatsIn_object.mp hv).erase
              · cases h
          | array items =>
              obtain ⟨i, -, rfl⟩ := Option.map_eq_some_iff.mp h
              exact floatsIn_array.mpr fun item hitem =>
                floatsIn_array.mp hv item (List.mem_of_mem_eraseIdx hitem)
          | _ => cases h
      | cons next rest =>
          cases v with
          | object members =>
              obtain ⟨inner, hinner, h⟩ := Option.bind_eq_some_iff.mp h
              obtain ⟨changed, hchanged, rfl⟩ := Option.map_eq_some_iff.mp h
              have hmembers := floatsIn_object.mp hv
              exact floatsIn_object.mpr (hmembers.insert (ih (hmembers.get? hinner) hchanged))
          | array items =>
              obtain ⟨i, -, h⟩ := Option.bind_eq_some_iff.mp h
              obtain ⟨inner, hinner, h⟩ := Option.bind_eq_some_iff.mp h
              obtain ⟨changed, hchanged, rfl⟩ := Option.map_eq_some_iff.mp h
              have hitems := floatsIn_array.mp hv
              exact floatsIn_set hitems (ih (hitems inner (List.mem_of_getElem? hinner)) hchanged) i
          | _ => cases h

end Value

/-- What an assignment writes is computed from what is there and what is given. -/
theorem AssignOp.floatsIn_combine {F : Set Float} (hF : Binary64.properFloats ⊆ F) {op : AssignOp}
    {current : Option Value} {v w : Value} (hcurrent : ∀ u ∈ current, u.FloatsIn F)
    (hv : v.FloatsIn F) (h : op.combine current v = .ok w) : w.FloatsIn F := by
  unfold combine at h
  split at h
  · split at h
    · next hr =>
        cases h
        exact Value.floatsIn_binary hF (Value.floatsIn_getD_null hcurrent) hv hr
    · cases h
  · cases h
    split
    · exact Value.floatsIn_appended hcurrent hv
    · exact hv

end TabPilot
