import TabPilot.Value.Record

set_option autoImplicit false

/-! # Records are kept in order

The members of a record stand in the order of their names (`Record.Ordered`), in whatever order they
were set: a record begins without members, and everything that changes one keeps the order. So
whoever goes through the members comes to every name once, in order (`Ordered.map_names`).
-/

namespace TabPilot.Record

variable {α β : Type}

/-- Whether the members stand in the order of their names. -/
def Ordered (r : Record α) : Prop := r.names.Pairwise (· < ·)

theorem names_replaceEntry (name : String) (value : α) (entries : List (String × α)) :
    (replaceEntry name value entries).map Prod.fst = entries.map Prod.fst := by
  induction entries with
  | nil => rfl
  | cons entry rest ih =>
      obtain ⟨other, held⟩ := entry
      by_cases h : name = other
      · simp [replaceEntry, h]
      · simp [replaceEntry, h, ih]

theorem mem_names_insertEntry {name other : String} {value : α} {entries : List (String × α)}
    (h : other ∈ (insertEntry name value entries).map Prod.fst) :
    other = name ∨ other ∈ entries.map Prod.fst := by
  induction entries with
  | nil => exact .inl (List.mem_singleton.mp h)
  | cons entry rest ih =>
      obtain ⟨first, held⟩ := entry
      by_cases hlt : name < first
      · simpa [insertEntry, hlt] using h
      · simp only [insertEntry, hlt, if_false, List.map_cons, List.mem_cons] at h ⊢
        rcases h with h | h
        · exact .inr (.inl h)
        · exact (ih h).imp_right .inr

/-- A new name is put where it belongs. -/
theorem pairwise_insertEntry {name : String} {value : α} {entries : List (String × α)}
    (h : (entries.map Prod.fst).Pairwise (· < ·)) (fresh : name ∉ entries.map Prod.fst) :
    ((insertEntry name value entries).map Prod.fst).Pairwise (· < ·) := by
  induction entries with
  | nil => exact List.pairwise_singleton _ _
  | cons entry rest ih =>
      obtain ⟨first, held⟩ := entry
      obtain ⟨hfirst, hrest⟩ := List.pairwise_cons.mp h
      by_cases hlt : name < first
      · simp only [insertEntry, hlt, if_true]
        refine List.pairwise_cons.mpr ⟨fun other hother => ?_, h⟩
        rcases List.mem_cons.mp hother with rfl | hother
        · exact hlt
        · exact String.lt_trans hlt (hfirst other hother)
      · simp only [insertEntry, hlt, if_false]
        obtain ⟨hne, hfresh⟩ : name ≠ first ∧ name ∉ rest.map Prod.fst :=
          not_or.mp (mt List.mem_cons.mpr fresh)
        refine List.pairwise_cons.mpr ⟨fun other hother => ?_, ih hrest hfresh⟩
        rcases mem_names_insertEntry hother with rfl | hother
        · exact Decidable.byContradiction fun hge =>
            hne (String.le_antisymm (String.not_lt.mp hge) (String.not_lt.mp hlt))
        · exact hfirst other hother

theorem not_mem_names {r : Record α} {name : String} (h : ¬ r.contains name = true) :
    name ∉ r.names := by
  intro hmem
  obtain ⟨entry, hentry, rfl⟩ := List.mem_map.mp hmem
  have hnone : r.entries.lookup entry.1 = none :=
    Option.not_isSome_iff_eq_none.mp h
  simpa using List.lookup_eq_none_iff.mp hnone entry hentry

theorem Ordered.insert {r : Record α} (h : r.Ordered) (name : String) (value : α) :
    (r.insert name value).Ordered := by
  rw [Record.insert]
  split
  · rw [Ordered, names, names_replaceEntry]
    exact h
  · next hnew => exact pairwise_insertEntry h (not_mem_names hnew)

theorem Ordered.erase {r : Record α} (h : r.Ordered) (name : String) : (r.erase name).Ordered :=
  List.Pairwise.sublist (List.filter_sublist.map Prod.fst) h

theorem Ordered.map {r : Record α} (h : r.Ordered) (f : α → β) : (r.map f).Ordered := by
  rw [Ordered, names, Record.map, List.map_map]
  exact h

/-- Members that are set one after the other. -/
theorem Ordered.foldl {r : Record α} (h : r.Ordered) (entries : List (String × α)) :
    (entries.foldl (fun r entry => r.insert entry.1 entry.2) r).Ordered := by
  induction entries generalizing r with
  | nil => exact h
  | cons entry rest ih => exact ih (h.insert entry.1 entry.2)

theorem ordered_ofList (entries : List (String × α)) : (ofList entries).Ordered :=
  Ordered.foldl (show Ordered empty from .nil) entries

theorem Ordered.overlay {below : Record α} (h : below.Ordered) (above : Record α) :
    (below.overlay above).Ordered :=
  h.foldl above.entries

/-! ## Going through a record -/

theorem Ordered.lookup {entries : List (String × α)} (h : Ordered ⟨entries⟩)
    {entry : String × α} (hentry : entry ∈ entries) :
    entries.lookup entry.1 = some entry.2 := by
  induction entries with
  | nil => cases hentry
  | cons first rest ih =>
      obtain ⟨hfirst, hrest⟩ := List.pairwise_cons.mp h
      rw [lookup_cons_ite]
      rcases List.mem_cons.mp hentry with rfl | hentry
      · rw [if_pos rfl]
      · have hlt : first.1 < entry.1 := hfirst _ (List.mem_map_of_mem hentry)
        have hne : entry.1 ≠ first.1 := by
          intro heq
          rw [heq] at hlt
          exact String.lt_irrefl _ hlt
        rw [if_neg hne, ih hrest hentry]

/-- Every name leads to the member that it stands at. -/
theorem Ordered.map_names {r : Record α} (h : r.Ordered) (f : String → Option α → β) :
    r.names.map (fun name => f name (r.get? name)) =
      r.entries.map fun entry => f entry.1 (some entry.2) := by
  rw [names, List.map_map]
  refine List.map_congr_left fun entry hentry => ?_
  rw [Function.comp_apply, get?, h.lookup hentry]

end TabPilot.Record
