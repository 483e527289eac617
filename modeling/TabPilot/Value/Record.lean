set_option autoImplicit false

/-! # Records

A record holds named members in increasing order of their names (code point order, which is
also the byte order of the UTF-8 text). Every place that lists members, writes them or walks
over them sees that order, whatever order they were added in. The lemmas at the end say how
`get?` reads a record after each operation.
-/

namespace TabPilot

/-- Named members, kept in increasing order of their names. -/
structure Record (α : Type) where
  entries : List (String × α)

namespace Record

variable {α β : Type}

def empty : Record α := ⟨[]⟩

instance : Inhabited (Record α) := ⟨empty⟩

def get? (r : Record α) (name : String) : Option α := r.entries.lookup name

def contains (r : Record α) (name : String) : Bool := (r.get? name).isSome

def names (r : Record α) : List String := r.entries.map Prod.fst

def isEmpty (r : Record α) : Bool := r.entries.isEmpty

/-- Puts a new member into a sorted list of members. -/
def insertEntry (name : String) (value : α) : List (String × α) → List (String × α)
  | [] => [(name, value)]
  | (other, held) :: rest =>
      if name < other then (name, value) :: (other, held) :: rest
      else (other, held) :: insertEntry name value rest

def replaceEntry (name : String) (value : α) : List (String × α) → List (String × α)
  | [] => []
  | (other, held) :: rest =>
      if name = other then (name, value) :: rest else (other, held) :: replaceEntry name value rest

def insert (r : Record α) (name : String) (value : α) : Record α :=
  if r.contains name then ⟨replaceEntry name value r.entries⟩
  else ⟨insertEntry name value r.entries⟩

def erase (r : Record α) (name : String) : Record α :=
  ⟨r.entries.filter fun entry => entry.1 ≠ name⟩

/-- The record of a list of members; of two with one name the later counts. -/
def ofList (entries : List (String × α)) : Record α :=
  entries.foldl (fun r entry => r.insert entry.1 entry.2) empty

def map (f : α → β) (r : Record α) : Record β :=
  ⟨r.entries.map fun entry => (entry.1, f entry.2)⟩

/-- All members of both records; those of `above` win. -/
def overlay (below above : Record α) : Record α :=
  above.entries.foldl (fun r entry => r.insert entry.1 entry.2) below

/-! ## Reading after writing -/

@[simp] theorem get?_empty (name : String) : (empty : Record α).get? name = none := rfl

theorem lookup_cons_ite {κ : Type} [DecidableEq κ] (key other : κ) (held : α)
    (rest : List (κ × α)) :
    ((key, held) :: rest).lookup other = if other = key then some held else rest.lookup other := by
  by_cases h : other = key
  · subst h; simp
  · rw [List.lookup_cons, beq_false_of_ne h, if_neg h]

theorem lookup_insertEntry (name other : String) (value : α) (entries : List (String × α))
    (fresh : entries.lookup name = none) :
    (insertEntry name value entries).lookup other =
      if other = name then some value else entries.lookup other := by
  induction entries with
  | nil => simp [insertEntry, lookup_cons_ite]
  | cons entry rest ih =>
      obtain ⟨key, held⟩ := entry
      rw [lookup_cons_ite] at fresh
      by_cases hk : name = key
      · simp [hk] at fresh
      · simp only [hk, if_false] at fresh
        by_cases hlt : name < key
        · simp [insertEntry, hlt, lookup_cons_ite]
        · simp only [insertEntry, hlt, if_false, lookup_cons_ite, ih fresh]
          by_cases h : other = key
          · have : key ≠ name := fun e => hk e.symm
            simp [h, this]
          · simp [h]

theorem lookup_replaceEntry (name other : String) (value : α) (entries : List (String × α))
    (there : (entries.lookup name).isSome) :
    (replaceEntry name value entries).lookup other =
      if other = name then some value else entries.lookup other := by
  induction entries with
  | nil => simp at there
  | cons entry rest ih =>
      obtain ⟨key, held⟩ := entry
      rw [lookup_cons_ite] at there
      by_cases hk : name = key
      · subst hk
        by_cases h : other = name <;> simp [replaceEntry, lookup_cons_ite, h]
      · simp only [hk, if_false] at there
        simp only [replaceEntry, hk, if_false, lookup_cons_ite, ih there]
        by_cases h : other = key
        · have : key ≠ name := fun e => hk e.symm
          simp [h, this]
        · simp [h]

/-- Setting a member changes what is read under its name and nothing else. -/
@[simp] theorem get?_insert (r : Record α) (name other : String) (value : α) :
    (r.insert name value).get? other = if other = name then some value else r.get? other := by
  by_cases h : r.contains name
  · simpa [insert, h, get?] using lookup_replaceEntry name other value r.entries h
  · have fresh : r.entries.lookup name = none := by
      rw [Bool.not_eq_true] at h
      exact Option.isNone_iff_eq_none.1 (by simpa only [contains, Option.isNone_eq_false_iff,
        Option.isSome_eq_false_iff, get?] using h)
    simpa [insert, h, get?] using lookup_insertEntry name other value r.entries fresh

theorem replaceEntry_self (name : String) (value : α) (entries : List (String × α))
    (there : entries.lookup name = some value) : replaceEntry name value entries = entries := by
  induction entries with
  | nil => simp at there
  | cons entry rest ih =>
      obtain ⟨key, held⟩ := entry
      rw [lookup_cons_ite] at there
      by_cases hk : name = key
      · simp [hk] at there
        simp [replaceEntry, hk, there]
      · simp only [hk, if_false] at there
        simp [replaceEntry, hk, ih there]

/-- Setting a member to the value it has changes nothing. -/
theorem insert_self (r : Record α) (name : String) (value : α) (there : r.get? name = some value) :
    r.insert name value = r := by
  have held : r.contains name = true := by simp [contains, there]
  simp [insert, held, replaceEntry_self name value r.entries there]

theorem replaceEntry_insertEntry (name : String) (old new : α) (entries : List (String × α))
    (fresh : entries.lookup name = none) :
    replaceEntry name new (insertEntry name old entries) = insertEntry name new entries := by
  induction entries with
  | nil => simp [insertEntry, replaceEntry]
  | cons entry rest ih =>
      obtain ⟨key, held⟩ := entry
      rw [lookup_cons_ite] at fresh
      by_cases hk : name = key
      · simp [hk] at fresh
      · simp only [hk, if_false] at fresh
        by_cases hlt : name < key
        · simp [insertEntry, hlt, replaceEntry]
        · simp [insertEntry, hlt, replaceEntry, hk, ih fresh]

theorem replaceEntry_replaceEntry (name : String) (old new : α) (entries : List (String × α)) :
    replaceEntry name new (replaceEntry name old entries) = replaceEntry name new entries := by
  induction entries with
  | nil => rfl
  | cons entry rest ih =>
      obtain ⟨key, held⟩ := entry
      by_cases hk : name = key
      · simp [replaceEntry, hk]
      · simp [replaceEntry, hk, ih]

/-- Of two values set under one name the later counts. -/
theorem insert_insert (r : Record α) (name : String) (old new : α) :
    (r.insert name old).insert name new = r.insert name new := by
  have held : (r.insert name old).contains name = true := by simp [contains]
  rw [insert, if_pos held]
  by_cases h : r.contains name = true
  · simp [insert, h, replaceEntry_replaceEntry]
  · have fresh : r.entries.lookup name = none := Option.not_isSome_iff_eq_none.mp h
    simp [insert, h, replaceEntry_insertEntry name old new r.entries fresh]

theorem lookup_filter_ne {κ : Type} [DecidableEq κ] (name other : κ) (entries : List (κ × α)) :
    (entries.filter fun entry => entry.1 ≠ name).lookup other =
      if other = name then none else entries.lookup other := by
  induction entries with
  | nil => simp
  | cons entry rest ih =>
      obtain ⟨key, held⟩ := entry
      by_cases hk : key = name
      · rw [List.filter_cons_of_neg (by simp [hk]), ih, lookup_cons_ite]
        by_cases h : other = name <;> simp [h, hk]
      · rw [List.filter_cons_of_pos (by simp [hk]), lookup_cons_ite, lookup_cons_ite, ih]
        by_cases h : other = key
        · simp [h, hk]
        · simp [h]

/-- Taking a member away changes what is read under its name and nothing else. -/
@[simp] theorem get?_erase (r : Record α) (name other : String) :
    (r.erase name).get? other = if other = name then none else r.get? other :=
  lookup_filter_ne name other r.entries

end Record

end TabPilot
