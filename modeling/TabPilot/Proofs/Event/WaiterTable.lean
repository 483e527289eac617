import TabPilot.Event.Waiters

set_option autoImplicit false

/-! # The table of waiters

What the operations of `Waiters` do to who waits for a name. The table is `Tidy` at any time: no
name has two entries, and no entry is empty.
-/

namespace TabPilot.Waiters

/-- Those who stand under a name in a table. -/
def under (table : List (String × List Waiter)) (name : String) : List Waiter :=
  (table.lookup name).getD []

/-- No name has two entries, and nobody has an empty one. -/
structure Tidy (table : List (String × List Waiter)) : Prop where
  keys_nodup : (table.map Prod.fst).Nodup
  nonempty : ∀ entry ∈ table, entry.2 ≠ []

theorem under_cons (key name : String) (waiting : List Waiter)
    (table : List (String × List Waiter)) :
    under ((key, waiting) :: table) name = if name = key then waiting else under table name := by
  unfold under
  rw [Record.lookup_cons_ite]
  by_cases h : name = key <;> simp [h]

theorem under_of_not_mem {table : List (String × List Waiter)} {name : String}
    (h : name ∉ table.map Prod.fst) : under table name = [] := by
  induction table with
  | nil => rfl
  | cons entry table ih =>
      obtain ⟨key, waiting⟩ := entry
      have hne : name ≠ key := fun heq => h (by simp [heq])
      rw [under_cons, if_neg hne]
      exact ih fun hmem => h (List.mem_cons_of_mem _ hmem)

/-! ## Adding a waiter -/

theorem under_enlist (name other : String) (waiter : Waiter)
    (table : List (String × List Waiter)) :
    under (enlist name waiter table) other =
      if other = name then under table name ++ [waiter] else under table other := by
  induction table with
  | nil =>
      rw [enlist, under_cons]
      rfl
  | cons entry table ih =>
      obtain ⟨key, waiting⟩ := entry
      by_cases hkey : key = name
      · subst hkey
        rw [enlist, if_pos rfl, under_cons, under_cons, if_pos rfl, under_cons]
        by_cases hother : other = key <;> simp [hother]
      · rw [enlist, if_neg hkey, under_cons, ih, under_cons, under_cons, if_neg (Ne.symm hkey)]
        by_cases hother : other = key
        · have hname : other ≠ name := fun heq => hkey (hother.symm.trans heq)
          simp [hother, hkey]
        · simp [hother]

/-- A new waiter stands behind those who wait for the same name. -/
theorem waitersFor_register (w : Waiters) (now : Instant) (name other : String)
    (criteria : List (String × Criterion)) :
    (w.register now name criteria).1.waitersFor other =
      w.waitersFor other ++ if other = name then [⟨w.nextId, criteria⟩] else [] := by
  refine (under_enlist name other ⟨w.nextId, criteria⟩ w.table).trans ?_
  by_cases hother : other = name
  · rw [if_pos hother, if_pos hother, hother]
    rfl
  · rw [if_neg hother, if_neg hother, List.append_nil]
    rfl

theorem mem_keys_enlist {name key : String} {waiter : Waiter}
    {table : List (String × List Waiter)} :
    key ∈ (enlist name waiter table).map Prod.fst ↔ key = name ∨ key ∈ table.map Prod.fst := by
  induction table with
  | nil => simp [enlist]
  | cons entry table ih =>
      obtain ⟨other, waiting⟩ := entry
      by_cases hother : other = name
      · subst hother
        simp [enlist]
      · rw [enlist, if_neg hother, List.map_cons, List.mem_cons, ih, List.map_cons, List.mem_cons]
        exact or_left_comm

theorem Tidy.enlist {table : List (String × List Waiter)} (tidy : Tidy table) (name : String)
    (waiter : Waiter) : Tidy (enlist name waiter table) := by
  induction table with
  | nil => exact ⟨by simp [Waiters.enlist], by simp [Waiters.enlist]⟩
  | cons entry table ih =>
      obtain ⟨key, waiting⟩ := entry
      obtain ⟨hkey, hrest⟩ := List.nodup_cons.mp tidy.keys_nodup
      have htail : Tidy table := ⟨hrest, fun entry hentry => tidy.nonempty entry (by simp [hentry])⟩
      by_cases hname : key = name
      · subst hname
        rw [Waiters.enlist, if_pos rfl]
        refine ⟨tidy.keys_nodup, ?_⟩
        intro entry hentry
        rcases List.mem_cons.mp hentry with rfl | hentry
        · simp
        · exact htail.nonempty entry hentry
      · rw [Waiters.enlist, if_neg hname]
        refine ⟨?_, ?_⟩
        -- The new entry can only be called `name`, which this entry is not.
        · refine List.nodup_cons.mpr ⟨?_, (ih htail).keys_nodup⟩
          rw [mem_keys_enlist]
          rintro (heq | hmem)
          · exact hname heq
          · exact hkey hmem
        · intro entry hentry
          rcases List.mem_cons.mp hentry with rfl | hentry
          · exact tidy.nonempty _ List.mem_cons_self
          · exact (ih htail).nonempty entry hentry

/-! ## Keeping those who pass a test -/

theorem keepUnder_cons (name key : String) (keep : Waiter → Bool) (waiting : List Waiter)
    (table : List (String × List Waiter)) :
    keepUnder name keep ((key, waiting) :: table) =
      if key = name then
        if (waiting.filter keep).isEmpty then keepUnder name keep table
        else (key, waiting.filter keep) :: keepUnder name keep table
      else (key, waiting) :: keepUnder name keep table := by
  unfold keepUnder
  rw [List.filterMap_cons]
  by_cases hkey : key = name
  · by_cases hempty : (waiting.filter keep).isEmpty <;> simp [hkey, hempty]
  · simp [hkey]

theorem keys_keepUnder_sublist (name : String) (keep : Waiter → Bool)
    (table : List (String × List Waiter)) :
    ((keepUnder name keep table).map Prod.fst).Sublist (table.map Prod.fst) := by
  induction table with
  | nil => exact .slnil
  | cons entry table ih =>
      obtain ⟨key, waiting⟩ := entry
      rw [keepUnder_cons, List.map_cons]
      split
      · split
        · exact ih.cons key
        · exact ih.cons_cons key
      · exact ih.cons_cons key

theorem Tidy.keepUnder {table : List (String × List Waiter)} (tidy : Tidy table) (name : String)
    (keep : Waiter → Bool) : Tidy (keepUnder name keep table) := by
  refine ⟨tidy.keys_nodup.sublist (keys_keepUnder_sublist name keep table), ?_⟩
  intro entry hentry
  obtain ⟨⟨key, waiting⟩, hmem, hkept⟩ := List.mem_filterMap.mp hentry
  by_cases hkey : key = name
  · by_cases hempty : (waiting.filter keep).isEmpty = true
    · simp only [hkey, hempty, if_true] at hkept
      cases hkept
    · simp only [hkey, hempty, if_true] at hkept
      cases hkept
      exact fun h => hempty (List.isEmpty_iff.mpr h)
  · simp only [hkey, if_false] at hkept
    cases hkept
    exact tidy.nonempty _ hmem

theorem under_keepUnder {table : List (String × List Waiter)} (tidy : Tidy table)
    (name other : String) (keep : Waiter → Bool) :
    under (keepUnder name keep table) other =
      if other = name then (under table name).filter keep else under table other := by
  induction table with
  | nil => simp [Waiters.keepUnder, under]
  | cons entry table ih =>
      obtain ⟨key, waiting⟩ := entry
      obtain ⟨hkey, hrest⟩ := List.nodup_cons.mp tidy.keys_nodup
      have htail : Tidy table := ⟨hrest, fun entry hentry => tidy.nonempty entry (by simp [hentry])⟩
      have ih := ih htail
      rw [keepUnder_cons, under_cons, under_cons]
      by_cases hname : key = name
      · subst hname
        -- An entry that becomes empty is dropped, and no second one has its name.
        have hnone : under table key = [] := under_of_not_mem hkey
        rw [if_pos rfl, if_pos rfl]
        by_cases hempty : (waiting.filter keep).isEmpty = true
        · rw [if_pos hempty, ih, hnone, List.isEmpty_iff.mp hempty]
          by_cases hother : other = key <;> simp [hother]
        · rw [if_neg hempty, under_cons, ih]
          by_cases hother : other = key <;> simp [hother]
      · rw [if_neg hname, under_cons, ih, if_neg (Ne.symm hname)]
        by_cases hother : other = key
        · simp [hother, hname]
        · simp [hother]

/-! ## Events -/

/-- Whether an event counts for those who wait under a name. -/
def reaches (e : Event) (name : String) : Bool := name = e.name || name = anyEvent

/-- No event is called like the name that stands for all of them. -/
theorem name_ne_anyEvent (e : Event) : e.name ≠ anyEvent := by
  intro h
  -- Its name has a dot, between the domain and the event.
  have hdot : '.' ∈ e.name.toList := by simp [Event.name]
  rw [h] at hdot
  revert hdot
  decide

theorem waitersFor_deliver {w : Waiters} (tidy : Tidy w.table) (e : Event) (name other : String) :
    (w.deliver e name).waitersFor other =
      if other = name then (w.waitersFor name).filter fun x => !e.meetsAll x.criteria
      else w.waitersFor other :=
  under_keepUnder tidy name other _

/-- The waiters after the time of an event was noted, and before anybody was told of it. -/
def noted (w : Waiters) (now : Instant) (e : Event) : Waiters :=
  { w with lastAny := now, lastByName := w.lastByName.insert e.name now }

theorem record_eq (w : Waiters) (now : Instant) (e : Event) :
    w.record now e = ((w.noted now e).deliver e e.name).deliver e anyEvent := rfl

/-- Those who wait for events of all names do not notice that those of its own name are told. -/
theorem waitersFor_deliver_own {w : Waiters} (tidy : Tidy w.table) (now : Instant) (e : Event) :
    ((w.noted now e).deliver e e.name).waitersFor anyEvent = w.waitersFor anyEvent := by
  have htidy : Tidy (w.noted now e).table := tidy
  rw [waitersFor_deliver htidy, if_neg (name_ne_anyEvent e).symm]
  rfl

/-- An event takes those away whose name it reaches and whose criteria it meets. -/
theorem waitersFor_record {w : Waiters} (tidy : Tidy w.table) (now : Instant) (e : Event)
    (name : String) :
    (w.record now e).waitersFor name =
      (w.waitersFor name).filter fun x => !(reaches e name && e.meetsAll x.criteria) := by
  have htidy : Tidy (w.noted now e).table := tidy
  have hsame : (w.noted now e).waitersFor = w.waitersFor := rfl
  rw [record_eq, waitersFor_deliver (htidy.keepUnder _ _), waitersFor_deliver_own tidy,
    waitersFor_deliver htidy, hsame]
  have hname := name_ne_anyEvent e
  -- The two deliveries are to two names, so that each waiter is looked at once at most.
  by_cases hany : name = anyEvent
  · simp [hany, reaches]
  · by_cases hown : name = e.name
    · simp [hown, hname, reaches]
    · rw [if_neg hany, if_neg hown]
      refine (List.filter_eq_self.mpr fun x _ => ?_).symm
      simp [hany, hown, reaches]

/-- An event fills the waits of those it takes away. -/
theorem filled_record {w : Waiters} (tidy : Tidy w.table) (now : Instant) (e : Event) :
    (w.record now e).filled = w.filled ++
      ((w.waitersFor e.name ++ w.waitersFor anyEvent).filter
        fun x => e.meetsAll x.criteria).map fun x => (x.id, e) := by
  rw [record_eq, List.filter_append, List.map_append, ← List.append_assoc]
  show (w.filled ++ _) ++ ((((w.noted now e).deliver e e.name).waitersFor anyEvent).filter _).map _
    = _
  rw [waitersFor_deliver_own tidy]
  rfl

theorem Tidy.record {w : Waiters} (tidy : Tidy w.table) (now : Instant) (e : Event) :
    Tidy (w.record now e).table :=
  (Tidy.keepUnder tidy e.name _).keepUnder anyEvent _

end TabPilot.Waiters
