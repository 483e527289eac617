import Mathlib.Data.List.Nodup
import TabPilot.Proofs.Event.WaiterTable
import TabPilot.Proofs.History

set_option autoImplicit false

/-! # No wake-up is lost, and none comes twice

Waits are registered, events come, waits end with their event, too late or since nobody holds
them any more, in any order. `Waiters.Run` is a history of such actions. From it `watches` reads
what has happened since each registration, which says what its wait should hold (`answer?`) and
whether it is still in the table (`isOpen`). The main statement is
`each_wait_gets_its_first_event`.
-/

namespace TabPilot.Waiters

/-! ## Histories -/

structure Registration where
  wait : PendingWait
  criteria : List (String × Criterion)

def Registration.waiter (r : Registration) : Waiter := ⟨r.wait.id, r.criteria⟩

/-- Whether an event is one that was waited for: it has the name, or any if the name is that of
all events, and it meets all criteria. -/
def Registration.wants (r : Registration) (e : Event) : Bool :=
  reaches e r.wait.name && e.meetsAll r.criteria

inductive Action
  | register (r : Registration)
  | record (e : Event)
  /-- A wait ends with its event, or too late. -/
  | finish (p : PendingWait) (outcome : Except Error EventWait)
  /-- A wait is given up. -/
  | drop (p : PendingWait)
  /-- A wait for quiet begins, or somebody looks how it stands. -/
  | quiet

def Action.ends (id : Nat) : Action → Bool
  | .finish p _ => p.id = id
  | .drop p => p.id = id
  | _ => false

def Action.event? : Action → Option Event
  | .record e => some e
  | _ => none

/-- What has happened so far, first things first. -/
abbrev History := List Action

def recorded (h : History) : List Event := h.filterMap Action.event?

/-- A registration and what has happened since. -/
structure Watch where
  registration : Registration
  since : History

namespace Watch

def id (x : Watch) : Nat := x.registration.wait.id

def isAlive (x : Watch) : Bool := x.since.all fun a => !a.ends x.id

/-- The first event since the registration that was waited for. -/
def answer? (x : Watch) : Option Event := (recorded x.since).find? x.registration.wants

/-- Whether the wait has neither ended nor got its event. -/
def isOpen (x : Watch) : Bool := x.isAlive && x.answer?.isNone

def andThen (x : Watch) (a : Action) : Watch := ⟨x.registration, x.since ++ [a]⟩

end Watch

/-- What has happened since each registration of a history, first ones first. -/
def watches : History → List Watch
  | [] => []
  | .register r :: rest => ⟨r, rest⟩ :: watches rest
  | _ :: rest => watches rest

/-- The registrations for a name that have neither ended nor got their event, first ones first. -/
def openFor (h : History) (name : String) : List Registration :=
  ((watches h).filter fun x => x.isOpen && x.registration.wait.name == name).map
    Watch.registration

/-- What may happen next after a history. A wait can end only once, since whoever ends it holds it
no longer. -/
inductive Step (h : History) (w : Waiters) : Action → Waiters → Prop
  | register (now : Instant) (name : String) (criteria : List (String × Criterion)) :
      Step h w (.register ⟨(w.register now name criteria).2, criteria⟩)
        (w.register now name criteria).1
  | record (now : Instant) (e : Event) : Step h w (.record e) (w.record now e)
  | finish {x : Watch} (mine : x ∈ watches h) (alive : x.isAlive = true) (since now : Instant)
      (timeout : Duration) {outcome : Except Error EventWait}
      (ended : w.outcome? x.registration.wait since timeout now = some outcome) :
      Step h w (.finish x.registration.wait outcome) (w.withdraw x.registration.wait)
  | drop {x : Watch} (mine : x ∈ watches h) (alive : x.isAlive = true) :
      Step h w (.drop x.registration.wait) (w.withdraw x.registration.wait)
  | beginQuiet (i : IdleWait) : Step h w .quiet (i.start w)
  | lookQuiet (i : IdleWait) (now : Instant) : Step h w .quiet (i.look w now).1

inductive Run : History → Waiters → Prop
  | start (now : Instant) : Run [] (Waiters.start now)
  | snoc {h : History} {w w' : Waiters} {a : Action} (before : Run h w) (step : Step h w a w') :
      Run (h ++ [a]) w'

/-! ## One more action -/

def Action.begun : Action → List Watch
  | .register r => [⟨r, []⟩]
  | _ => []

/-- Whether an open wait is open after an action. -/
def Action.spares (a : Action) (r : Registration) : Bool :=
  !a.ends r.wait.id && !a.event?.any r.wants

theorem watches_snoc (h : History) (a : Action) :
    watches (h ++ [a]) = (watches h).map (·.andThen a) ++ a.begun := by
  induction h with
  | nil => cases a <;> rfl
  | cons b h ih => cases b <;> simp [watches, Watch.andThen, ih]

theorem Watch.isAlive_andThen (x : Watch) (a : Action) :
    (x.andThen a).isAlive = (x.isAlive && !a.ends x.id) := by
  simp [Watch.isAlive, Watch.andThen, Watch.id]

theorem Watch.answer?_andThen (x : Watch) (a : Action) :
    (x.andThen a).answer? = x.answer?.or (a.event?.filter x.registration.wants) := by
  unfold Watch.answer? Watch.andThen recorded
  rw [List.filterMap_append, List.find?_append]
  cases ha : a.event? with
  | none => simp [ha]
  | some e => by_cases hwants : x.registration.wants e = true <;> simp [ha, hwants, Option.filter]

theorem Watch.isOpen_andThen (x : Watch) (a : Action) :
    (x.andThen a).isOpen = (x.isOpen && a.spares x.registration) := by
  unfold Watch.isOpen Action.spares
  rw [isAlive_andThen, answer?_andThen]
  cases hanswer : x.answer? with
  | some e => simp
  | none =>
      cases ha : a.event? with
      | none => simp [Watch.id]
      | some e =>
          by_cases hwants : x.registration.wants e = true <;>
            simp [hwants, Option.filter, Watch.id]

theorem openFor_snoc (h : History) (a : Action) (name : String) :
    openFor (h ++ [a]) name = (openFor h name).filter a.spares ++
      (a.begun.map Watch.registration).filter fun r => r.wait.name == name := by
  unfold openFor
  rw [watches_snoc, List.filter_append, List.map_append, List.filter_map, List.filter_map,
    List.filter_filter, List.map_map]
  -- The old watches on the left, the one that may have begun on the right.
  congr 1
  · show ((watches h).filter fun x => (x.andThen a).isOpen && x.registration.wait.name == name).map
      Watch.registration = _
    congr 1
    refine List.filter_congr fun x _ => ?_
    rw [Watch.isOpen_andThen]
    simp [Bool.and_comm, Bool.and_left_comm]
  · cases a with
    | register r =>
        by_cases hname : r.wait.name = name <;>
          simp [Action.begun, hname, Watch.isOpen, Watch.isAlive, Watch.answer?, recorded]
    | _ => rfl

/-! ## Waiters and history fit together -/

/-- What holds of the waiters after a history. -/
structure Kept (h : History) (w : Waiters) : Prop where
  tidy : Tidy w.table
  fresh : ∀ x ∈ watches h, x.id < w.nextId
  ids_nodup : ((watches h).map Watch.id).Nodup
  waiting : ∀ name, w.waitersFor name = (openFor h name).map Registration.waiter
  answered : ∀ x ∈ watches h, x.isAlive = true → w.event? x.registration.wait = x.answer?
  /-- Only a wait that somebody still holds is filled. -/
  filled_alive : ∀ entry ∈ w.filled, ∃ x ∈ watches h, x.isAlive = true ∧ x.id = entry.1
  filled_nodup : (w.filled.map Prod.fst).Nodup

/-- There is one watch of an id. -/
theorem Kept.eq_of_id_eq {h : History} {w : Waiters} (kept : Kept h w) {x y : Watch}
    (hx : x ∈ watches h) (hy : y ∈ watches h) (hid : x.id = y.id) : x = y :=
  List.inj_on_of_nodup_map kept.ids_nodup hx hy hid

theorem mem_openFor {h : History} {name : String} {r : Registration} :
    r ∈ openFor h name ↔ ∃ x ∈ watches h, x.isOpen = true ∧ x.registration = r ∧
      r.wait.name = name := by
  unfold openFor
  simp only [List.mem_map, List.mem_filter, Bool.and_eq_true, beq_iff_eq]
  constructor
  · rintro ⟨x, ⟨hx, hopen, hname⟩, rfl⟩
    exact ⟨x, hx, hopen, rfl, hname⟩
  · rintro ⟨x, hx, hopen, rfl, hname⟩
    exact ⟨x, ⟨hx, hopen, hname⟩, rfl⟩

theorem kept_start (now : Instant) : Kept [] (Waiters.start now) where
  tidy := ⟨by simp [Waiters.start], by simp [Waiters.start]⟩
  fresh := by simp [watches]
  ids_nodup := by simp [watches]
  waiting _ := rfl
  answered := by simp [watches]
  filled_alive := by simp [Waiters.start]
  filled_nodup := by simp [Waiters.start]

/-- The watches after an action that begins none. -/
theorem mem_watches_snoc {h : History} {a : Action} (silent : a.begun = []) {x : Watch} :
    x ∈ watches (h ++ [a]) ↔ ∃ y ∈ watches h, y.andThen a = x := by
  rw [watches_snoc, silent, List.append_nil, List.mem_map]

theorem map_id_watches_snoc {h : History} {a : Action} (silent : a.begun = []) :
    (watches (h ++ [a])).map Watch.id = (watches h).map Watch.id := by
  rw [watches_snoc, silent, List.append_nil, List.map_map]
  rfl

theorem Kept.register {h : History} {w : Waiters} (kept : Kept h w) (now : Instant) (name : String)
    (criteria : List (String × Criterion)) :
    Kept (h ++ [.register ⟨(w.register now name criteria).2, criteria⟩])
      (w.register now name criteria).1 := by
  -- The registration is kept folded: of it only the id, the name and the waiter matter.
  generalize hr : (⟨(w.register now name criteria).2, criteria⟩ : Registration) = r
  have hid : r.wait.id = w.nextId := by rw [← hr]; rfl
  have hname : r.wait.name = name := by rw [← hr]; rfl
  have hwaiter : r.waiter = ⟨w.nextId, criteria⟩ := by rw [← hr]; rfl
  have halive : ∀ x : Watch, (x.andThen (.register r)).isAlive = x.isAlive := fun x => by
    rw [Watch.isAlive_andThen]
    simp [Action.ends]
  have hanswer : ∀ x : Watch, (x.andThen (.register r)).answer? = x.answer? := fun x => by
    rw [Watch.answer?_andThen]
    simp [Action.event?, Option.filter]
  have hwatches : watches (h ++ [.register r]) =
      (watches h).map (·.andThen (.register r)) ++ [⟨r, []⟩] := watches_snoc h _
  refine ⟨kept.tidy.enlist _ _, ?_, ?_, ?_, ?_, ?_, kept.filled_nodup⟩
  · intro x hx
    show x.id < w.nextId + 1
    rw [hwatches] at hx
    rcases List.mem_append.mp hx with hold | hnew
    · obtain ⟨y, hy, rfl⟩ := List.mem_map.mp hold
      exact Nat.lt_succ_of_lt (kept.fresh y hy)
    · obtain rfl := List.mem_singleton.mp hnew
      show r.wait.id < w.nextId + 1
      omega
  · rw [hwatches, List.map_append, List.map_map]
    refine List.nodup_append.mpr ⟨kept.ids_nodup, by simp, ?_⟩
    intro id hold id' hnew
    obtain ⟨y, hy, rfl⟩ := List.mem_map.mp hold
    obtain rfl : id' = r.wait.id := by simpa [Watch.id] using hnew
    have hlt : y.id < w.nextId := kept.fresh y hy
    show y.id ≠ r.wait.id
    omega
  · intro other
    have hspared : (openFor h other).filter (Action.register r).spares = openFor h other :=
      List.filter_eq_self.mpr fun _ _ => rfl
    have hnew : ([r].filter fun r => r.wait.name == other).map Registration.waiter =
        if other = name then [⟨w.nextId, criteria⟩] else [] := by
      by_cases hother : other = name
      · have hown : r.wait.name = other := hname.trans hother.symm
        simp [hown, hwaiter, hother]
      · have hne : r.wait.name ≠ other := fun heq => hother (heq.symm.trans hname)
        simp [hne, hother]
    rw [openFor_snoc, hspared, List.map_append, ← kept.waiting other, waitersFor_register, ← hnew]
    rfl
  · intro x hx hxalive
    rw [hwatches] at hx
    rcases List.mem_append.mp hx with hold | hnew
    · obtain ⟨y, hy, rfl⟩ := List.mem_map.mp hold
      rw [halive] at hxalive
      rw [hanswer]
      exact kept.answered y hy hxalive
    · obtain rfl := List.mem_singleton.mp hnew
      -- Nothing is filled under a new id, since what is filled belongs to an older watch.
      refine List.lookup_eq_none_iff.mpr fun entry hentry => ?_
      obtain ⟨y, hy, -, hyid⟩ := kept.filled_alive entry hentry
      have hlt : y.id < w.nextId := kept.fresh y hy
      have hne : r.wait.id ≠ entry.1 := by omega
      simpa using hne
  · intro entry hentry
    obtain ⟨y, hy, hyalive, hyid⟩ := kept.filled_alive entry hentry
    refine ⟨y.andThen (.register r), ?_, by rw [halive]; exact hyalive, hyid⟩
    rw [hwatches]
    exact List.mem_append_left _ (List.mem_map_of_mem hy)

/-- What has to be shown of an action that registers nothing. -/
theorem Kept.of_silent {h : History} {w w' : Waiters} {a : Action} (kept : Kept h w)
    (silent : a.begun = []) (tidy : Tidy w'.table) (sameNext : w'.nextId = w.nextId)
    (waiting : ∀ name,
      w'.waitersFor name = ((openFor h name).filter a.spares).map Registration.waiter)
    (answered : ∀ x ∈ watches h, x.isAlive = true → a.ends x.id = false →
      w'.event? x.registration.wait = x.answer?.or (a.event?.filter x.registration.wants))
    (filled_alive : ∀ entry ∈ w'.filled,
      ∃ x ∈ watches h, x.isAlive = true ∧ a.ends x.id = false ∧ x.id = entry.1)
    (filled_nodup : (w'.filled.map Prod.fst).Nodup) : Kept (h ++ [a]) w' := by
  -- Nobody registers, so the watches are those of before with one more action.
  refine ⟨tidy, ?_, ?_, ?_, ?_, ?_, filled_nodup⟩
  · intro x hx
    obtain ⟨y, hy, rfl⟩ := (mem_watches_snoc silent).mp hx
    rw [sameNext]
    exact kept.fresh y hy
  · rw [map_id_watches_snoc silent]
    exact kept.ids_nodup
  · intro name
    rw [waiting, openFor_snoc, silent]
    simp
  · intro x hx hxalive
    obtain ⟨y, hy, rfl⟩ := (mem_watches_snoc silent).mp hx
    rw [Watch.isAlive_andThen, Bool.and_eq_true, Bool.not_eq_true'] at hxalive
    rw [Watch.answer?_andThen]
    exact answered y hy hxalive.1 hxalive.2
  · intro entry hentry
    obtain ⟨y, hy, hyalive, hyends, hyid⟩ := filled_alive entry hentry
    refine ⟨y.andThen a, (mem_watches_snoc silent).mpr ⟨y, hy, rfl⟩, ?_, hyid⟩
    rw [Watch.isAlive_andThen, hyalive, hyends]
    rfl

/-- Those whom an event takes away are the open ones who wanted it. -/
theorem Kept.mem_ready {h : History} {w : Waiters} (kept : Kept h w) (e : Event) (id : Nat) :
    id ∈ ((w.waitersFor e.name ++ w.waitersFor anyEvent).filter
        fun x => e.meetsAll x.criteria).map Waiter.id ↔
      ∃ x ∈ watches h, x.isOpen = true ∧ x.registration.wants e = true ∧ x.id = id := by
  simp only [kept.waiting, List.mem_map, List.mem_filter, List.mem_append, mem_openFor]
  constructor
  · rintro ⟨waiter, ⟨⟨r, ⟨x, hx, hopen, rfl, hname⟩, rfl⟩ | ⟨r, ⟨x, hx, hopen, rfl, hname⟩, rfl⟩,
      hmeets⟩, rfl⟩
    · refine ⟨x, hx, hopen, ?_, rfl⟩
      simpa [Registration.wants, Registration.waiter, reaches, hname] using hmeets
    · refine ⟨x, hx, hopen, ?_, rfl⟩
      simpa [Registration.wants, Registration.waiter, reaches, hname] using hmeets
  · rintro ⟨x, hx, hopen, hwants, rfl⟩
    obtain ⟨hreaches, hmeets⟩ := (Bool.and_eq_true _ _).mp hwants
    refine ⟨x.registration.waiter, ⟨?_, hmeets⟩, rfl⟩
    rcases (Bool.or_eq_true _ _).mp hreaches with hname | hname
    · exact .inl ⟨_, ⟨x, hx, hopen, rfl, by simpa using hname⟩, rfl⟩
    · exact .inr ⟨_, ⟨x, hx, hopen, rfl, by simpa using hname⟩, rfl⟩

/-- Nobody stands in the table twice under one name. -/
theorem Kept.ids_waitersFor_nodup {h : History} {w : Waiters} (kept : Kept h w) (name : String) :
    ((w.waitersFor name).map Waiter.id).Nodup := by
  rw [kept.waiting, openFor, List.map_map, List.map_map]
  exact kept.ids_nodup.sublist (List.filter_sublist.map Watch.id)

/-- Nobody stands in the table under two names. -/
theorem Kept.name_eq_of_waiting {h : History} {w : Waiters} (kept : Kept h w) {x y : Waiter}
    {name other : String} (hx : x ∈ w.waitersFor name) (hy : y ∈ w.waitersFor other)
    (hid : x.id = y.id) : name = other := by
  rw [kept.waiting] at hx hy
  obtain ⟨r, hr, rfl⟩ := List.mem_map.mp hx
  obtain ⟨r', hr', rfl⟩ := List.mem_map.mp hy
  obtain ⟨v, hv, -, rfl, rfl⟩ := mem_openFor.mp hr
  obtain ⟨v', hv', -, rfl, rfl⟩ := mem_openFor.mp hr'
  rw [kept.eq_of_id_eq hv hv' hid]

/-- An event takes nobody away twice. -/
theorem Kept.ready_nodup {h : History} {w : Waiters} (kept : Kept h w) (e : Event) :
    (((w.waitersFor e.name ++ w.waitersFor anyEvent).filter
      fun x => e.meetsAll x.criteria).map Waiter.id).Nodup := by
  refine List.Nodup.sublist (List.filter_sublist.map Waiter.id) ?_
  rw [List.map_append]
  refine List.nodup_append.mpr
    ⟨kept.ids_waitersFor_nodup _, kept.ids_waitersFor_nodup _, fun id hown id' hany heq => ?_⟩
  obtain ⟨x, hx, rfl⟩ := List.mem_map.mp hown
  obtain ⟨y, hy, rfl⟩ := List.mem_map.mp hany
  exact name_ne_anyEvent e (kept.name_eq_of_waiting hx hy heq)

theorem lookup_map_const {α β : Type} (f : α → Nat) (b : β) (l : List α) (k : Nat) :
    (l.map fun x => (f x, b)).lookup k = if k ∈ l.map f then some b else none := by
  induction l with
  | nil => rfl
  | cons x l ih =>
      rw [List.map_cons, Record.lookup_cons_ite, ih]
      by_cases hk : k = f x <;> simp [hk]

theorem Watch.isOpen_iff {x : Watch} :
    x.isOpen = true ↔ x.isAlive = true ∧ x.answer? = none := by
  simp [Watch.isOpen]

theorem Kept.record {h : History} {w : Waiters} (kept : Kept h w) (now : Instant) (e : Event) :
    Kept (h ++ [.record e]) (w.record now e) := by
  have hfilled := filled_record kept.tidy now e
  have hids : ∀ l : List Waiter, (l.map fun x => (x.id, e)).map Prod.fst = l.map Waiter.id :=
    fun l => by rw [List.map_map]; rfl
  refine kept.of_silent rfl (kept.tidy.record now e) rfl ?_ ?_ ?_ ?_
  · intro name
    rw [waitersFor_record kept.tidy, kept.waiting, List.filter_map]
    congr 1
    refine List.filter_congr fun r hr => ?_
    obtain ⟨x, -, -, -, rfl⟩ := mem_openFor.mp hr
    simp [Action.spares, Action.ends, Action.event?, Registration.wants, Registration.waiter]
  · intro x hx halive _
    have hold : w.filled.lookup x.id = x.answer? := kept.answered x hx halive
    show (w.record now e).filled.lookup x.id = x.answer?.or ((some e).filter x.registration.wants)
    rw [hfilled, List.lookup_append, hold, lookup_map_const]
    cases hanswer : x.answer? with
    | some first => rfl
    | none =>
        -- Whoever stands in the table and is ready is this watch, since no id is handed out twice.
        have hready : x.id ∈ ((w.waitersFor e.name ++ w.waitersFor anyEvent).filter
            fun x => e.meetsAll x.criteria).map Waiter.id ↔ x.registration.wants e = true := by
          rw [kept.mem_ready]
          constructor
          · rintro ⟨y, hy, -, hwants, hid⟩
            rw [kept.eq_of_id_eq hx hy hid.symm]
            exact hwants
          · exact fun hwants => ⟨x, hx, Watch.isOpen_iff.mpr ⟨halive, hanswer⟩, hwants, rfl⟩
        by_cases hwants : x.registration.wants e = true
        · rw [if_pos (hready.mpr hwants)]
          simp [Option.filter, hwants]
        · rw [if_neg fun h => hwants (hready.mp h)]
          simp [Option.filter, hwants]
  · intro entry hentry
    rw [hfilled] at hentry
    rcases List.mem_append.mp hentry with hold | hnew
    · obtain ⟨x, hx, halive, hid⟩ := kept.filled_alive entry hold
      exact ⟨x, hx, halive, rfl, hid⟩
    · have hid : entry.1 ∈ _ := List.mem_map_of_mem (f := Prod.fst) hnew
      rw [hids, kept.mem_ready] at hid
      obtain ⟨x, hx, hopen, -, hid⟩ := hid
      exact ⟨x, hx, (Watch.isOpen_iff.mp hopen).1, rfl, hid⟩
  · rw [hfilled, List.map_append, hids]
    refine List.nodup_append.mpr ⟨kept.filled_nodup, kept.ready_nodup e, ?_⟩
    intro id hold id' hnew heq
    subst heq
    obtain ⟨x, hx, hopen, -, hid⟩ := (kept.mem_ready e id).mp hnew
    obtain ⟨halive, hanswer⟩ := Watch.isOpen_iff.mp hopen
    -- A wait that is open holds nothing yet, so the event fills it for the first time.
    have hnone : w.filled.lookup x.id = none := (kept.answered x hx halive).trans hanswer
    obtain ⟨entry, hentry, rfl⟩ := List.mem_map.mp hold
    simpa [hid] using List.lookup_eq_none_iff.mp hnone entry hentry

/-- The table without a wait holds those who are open and are not this one. -/
theorem Kept.waitersFor_withdraw {h : History} {w : Waiters} (kept : Kept h w) {x : Watch}
    (mine : x ∈ watches h) (name : String) :
    (w.withdraw x.registration.wait).waitersFor name =
      ((openFor h name).filter fun r => x.id ≠ r.wait.id).map Registration.waiter := by
  refine (under_keepUnder kept.tidy x.registration.wait.name name
    fun waiter => waiter.id ≠ x.registration.wait.id).trans ?_
  by_cases hname : name = x.registration.wait.name
  · rw [if_pos hname, ← hname]
    show (w.waitersFor name).filter _ = _
    rw [kept.waiting, List.filter_map]
    congr 1
    exact List.filter_congr fun r _ => decide_eq_decide.mpr ne_comm
  · rw [if_neg hname]
    show w.waitersFor name = _
    rw [kept.waiting]
    congr 1
    refine (List.filter_eq_self.mpr fun r hr => decide_eq_true ?_).symm
    -- The wait itself is open under its own name only.
    obtain ⟨y, hy, -, rfl, hown⟩ := mem_openFor.mp hr
    intro hid
    rw [kept.eq_of_id_eq mine hy hid] at hname
    exact hname hown.symm

/-- A wait that ends leaves the table, and its event goes with it. -/
theorem Kept.withdraw {h : History} {w : Waiters} (kept : Kept h w) {x : Watch}
    (mine : x ∈ watches h) {a : Action} (silent : a.begun = []) (noEvent : a.event? = none)
    (ends : ∀ id, a.ends id = true ↔ x.id = id) :
    Kept (h ++ [a]) (w.withdraw x.registration.wait) := by
  have hends : ∀ {y : Watch}, a.ends y.id = false → y.id ≠ x.id := by
    intro y hy heq
    rw [(ends y.id).mpr heq.symm] at hy
    cases hy
  have hspares : ∀ r : Registration, a.spares r = decide (x.id ≠ r.wait.id) := by
    intro r
    rw [Action.spares, noEvent, Bool.eq_iff_iff]
    simp [← ends]
  refine kept.of_silent silent (kept.tidy.keepUnder _ _) rfl ?_ ?_ ?_ ?_
  · intro name
    rw [kept.waitersFor_withdraw mine]
    congr 1
    exact List.filter_congr fun r _ => (hspares r).symm
  · intro y hy halive hyends
    rw [noEvent]
    show (w.filled.filter fun entry => entry.1 ≠ x.id).lookup y.id = _
    rw [Record.lookup_filter_ne, if_neg (hends hyends)]
    exact (kept.answered y hy halive).trans (by simp)
  · intro entry hentry
    obtain ⟨hold, hne⟩ := List.mem_filter.mp hentry
    obtain ⟨y, hy, halive, hid⟩ := kept.filled_alive entry hold
    -- What stays filled is under another id.
    have hother : x.id ≠ y.id := by
      intro heq
      have hgone : entry.1 ≠ x.id := of_decide_eq_true hne
      exact hgone (hid.symm.trans heq.symm)
    exact ⟨y, hy, halive, by simpa using fun h => hother ((ends y.id).mp h), hid⟩
  · exact kept.filled_nodup.sublist (List.filter_sublist.map Prod.fst)

/-- Waiting for quiet leaves those who wait for events alone. -/
theorem Kept.quiet {h : History} {w w' : Waiters} (kept : Kept h w) (table : w'.table = w.table)
    (filled : w'.filled = w.filled) (nextId : w'.nextId = w.nextId) : Kept (h ++ [.quiet]) w' := by
  refine kept.of_silent rfl (by rw [table]; exact kept.tidy) nextId ?_ ?_ ?_ ?_
  · intro name
    -- No wait ends, and no event comes.
    have hspared : (openFor h name).filter Action.quiet.spares = openFor h name :=
      List.filter_eq_self.mpr fun _ _ => rfl
    rw [hspared, ← kept.waiting]
    unfold waitersFor
    rw [table]
  · intro x hx halive _
    have hold := kept.answered x hx halive
    unfold event? at hold ⊢
    rw [filled, hold]
    simp [Action.event?]
  · intro entry hentry
    rw [filled] at hentry
    obtain ⟨x, hx, halive, hid⟩ := kept.filled_alive entry hentry
    exact ⟨x, hx, halive, rfl, hid⟩
  · rw [filled]
    exact kept.filled_nodup

theorem Kept.step {h : History} {w w' : Waiters} {a : Action} (kept : Kept h w)
    (step : Step h w a w') : Kept (h ++ [a]) w' := by
  cases step with
  | register now name criteria => exact kept.register now name criteria
  | record now e => exact kept.record now e
  | finish mine alive since now timeout ended =>
      exact kept.withdraw mine rfl rfl fun id => by simp [Action.ends, Watch.id]
  | drop mine alive =>
      exact kept.withdraw mine rfl rfl fun id => by simp [Action.ends, Watch.id]
  | beginQuiet i => exact kept.quiet rfl rfl rfl
  | lookQuiet i now =>
      unfold IdleWait.look
      split
      · exact kept.quiet rfl rfl rfl
      · split <;> exact kept.quiet rfl rfl rfl

theorem Run.kept {h : History} {w : Waiters} (run : Run h w) : Kept h w := by
  induction run with
  | start now => exact kept_start now
  | snoc before step ih => exact ih.step step

/-! ## Wake-ups -/

/-- A run up to an action of its history, and the step that is this action. -/
theorem Run.split {past future : History} {a : Action} {w : Waiters}
    (run : Run (past ++ a :: future) w) : ∃ w₁ w₂, Run past w₁ ∧ Step past w₁ a w₂ := by
  generalize hh : past ++ a :: future = h at run
  induction run generalizing future with
  | start => simp at hh
  | @snoc h w w' b before step ih =>
      rcases History.at_end_or_before hh with ⟨-, rfl, rfl⟩ | ⟨future', -, hbefore⟩
      · exact ⟨w, w', before, step⟩
      · exact ih hbefore

/-- A wait ends with the first event that was waited for, and too late only if there was none. -/
theorem Run.answer_of_finish {h : History} {w w' : Waiters} {p : PendingWait}
    {outcome : Except Error EventWait} (run : Run h w) (step : Step h w (.finish p outcome) w') :
    ∃ x ∈ watches h, x.registration.wait = p ∧ x.isAlive = true ∧
      (∀ got, outcome = .ok got → x.answer? = some got.event) ∧
      (∀ e, outcome = .error e → x.answer? = none) := by
  cases step with
  | finish mine alive since now timeout ended =>
      refine ⟨_, mine, rfl, alive, ?_⟩
      rw [← run.kept.answered _ mine alive]
      unfold outcome? at ended
      split at ended
      · next e hevent =>
          cases ended
          refine ⟨fun got hgot => ?_, nofun⟩
          cases hgot
          exact hevent
      · next hevent =>
          split at ended
          · cases ended
            exact ⟨nofun, fun _ _ => hevent⟩
          · cases ended

/-- **No wake-up is lost, and none comes twice.** After every history of the waiters:

* the ids handed out are pairwise distinct;
* as long as a wait is alive, it holds the first event since its registration that has its name,
  or any if it waits for all events, and meets all its criteria, and nothing if there was none;
* no wait is filled twice, and only waits that are alive are filled;
* a wait ended with an event only if that was the first one waited for, and too late only if there
  was none;
* an event that is not the one waited for leaves a waiter in the table;
* the table holds under each name the waits for it that are neither ended nor filled, in order of
  registration; no name is in it twice, and none has an empty entry. -/
theorem each_wait_gets_its_first_event {h : History} {w : Waiters} (run : Run h w) :
    ((watches h).map Watch.id).Nodup ∧
    (∀ x ∈ watches h, x.isAlive = true → w.event? x.registration.wait = x.answer?) ∧
    (w.filled.map Prod.fst).Nodup ∧
    (∀ entry ∈ w.filled, ∃ x ∈ watches h, x.isAlive = true ∧ x.id = entry.1) ∧
    (∀ past p outcome future, h = past ++ .finish p outcome :: future →
      ∃ x ∈ watches past, x.registration.wait = p ∧ x.isAlive = true ∧
        (∀ got, outcome = .ok got → x.answer? = some got.event) ∧
        (∀ e, outcome = .error e → x.answer? = none)) ∧
    (∀ now e, ∀ r ∈ watches h, r.registration.wants e = false →
      r.registration.waiter ∈ w.waitersFor r.registration.wait.name →
      r.registration.waiter ∈ (w.record now e).waitersFor r.registration.wait.name) ∧
    (∀ name, w.waitersFor name = (openFor h name).map Registration.waiter) ∧
    (w.table.map Prod.fst).Nodup ∧ ∀ entry ∈ w.table, entry.2 ≠ [] := by
  refine ⟨run.kept.ids_nodup, run.kept.answered, run.kept.filled_nodup, run.kept.filled_alive, ?_,
    ?_, run.kept.waiting, run.kept.tidy.keys_nodup, run.kept.tidy.nonempty⟩
  · rintro past p outcome future rfl
    obtain ⟨w₁, w₂, before, step⟩ := run.split
    exact before.answer_of_finish step
  · intro now e x hx hunwanted hwaits
    rw [waitersFor_record run.kept.tidy]
    refine List.mem_filter.mpr ⟨hwaits, ?_⟩
    show (!x.registration.wants e) = true
    rw [hunwanted]
    rfl

/-- Two waits for one name with different criteria: the first event is for the second one only. -/
theorem each_wait_gets_its_first_event_criteria :
    let hit : Event := ⟨"A", "b", .object ⟨[("x", .int 2)]⟩⟩
    let miss : Event := ⟨"A", "b", .object ⟨[("x", .int 1)]⟩⟩
    ∃ h w, Run h w ∧ .finish ⟨"A.b", 0, 0⟩ (.ok ⟨hit, 0⟩) ∈ h ∧ .record miss ∈ h ∧
      w.event? ⟨"A.b", 1, 0⟩ = some miss ∧ w.waitersFor "A.b" = [] := by
  intro hit miss
  have a₁ := (Run.start 0).snoc (.register 0 "A.b" [("x", .equals (.int 2))])
  have b₁ := a₁.snoc (.register 0 "A.b" [])
  have c₁ := b₁.snoc (.record 0 miss)
  have c₂ := c₁.snoc (.record 0 hit)
  have a₂ := c₂.snoc (.finish (.head _) rfl 0 0 0 rfl)
  have run : Run [.register ⟨⟨"A.b", 0, 0⟩, [("x", .equals (.int 2))]⟩,
      .register ⟨⟨"A.b", 1, 0⟩, []⟩, .record miss, .record hit,
      .finish ⟨"A.b", 0, 0⟩ (.ok ⟨hit, 0⟩)] _ := a₂
  obtain ⟨-, hanswer, -, -, -, -, htable, -⟩ := each_wait_gets_its_first_event run
  exact ⟨_, _, run, by simp, by simp, hanswer _ (.tail _ (.head _)) rfl, htable "A.b"⟩

end TabPilot.Waiters
