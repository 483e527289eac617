import Mathlib.Data.List.Induction
import Mathlib.Logic.Function.Basic
import TabPilot.Event.Wait
import TabPilot.Proofs.History

set_option autoImplicit false

/-! # Many waits for quiet

Any number of calls wait for quiet at the same waiters while events come in and time passes.
`Vigils` is the time, the waiters and the calls that have not ended; `Vigils.Run` is a history of
what happens. Timers are prompt: time does not pass the instant at which a call is to look how it
stands. `Run.memory` says what the waiters remember after every history, and `Run.punctual` at
which instants each call looks.
-/

namespace TabPilot

/-- When the wait is looked at for the `k`-th time if it has not ended before, from zero on. -/
def IdleWait.pollAt (i : IdleWait) : Nat → Instant
  | 0 => i.started
  | k + 1 => i.wake (i.pollAt k)

/-- The wait that goes on after a look, if it does. -/
def Wait.Standing.wait? : Wait.Standing → Option Wait
  | .open w => some w
  | .ended _ => none

/-- What a wait has come to after a look, if it has ended. -/
def Wait.Standing.result? : Wait.Standing → Option (Except Error Value)
  | .open _ => none
  | .ended r => some r

/-- The time, the waiters, and the waits for quiet that have not ended, by their calls. -/
structure Vigils where
  now : Instant
  waiters : Waiters
  waits : Nat → Option Wait

namespace Vigils

/-- What there is after a call had its turn: the waiters, and the call's own wait if it goes on. -/
def turn (s : Vigils) (w : Waiters) (call : Nat) (wait : Option Wait) : Vigils :=
  { s with waiters := w, waits := Function.update s.waits call wait }

@[simp] theorem turn_now (s : Vigils) (w : Waiters) (call : Nat) (wait : Option Wait) :
    (s.turn w call wait).now = s.now := rfl

@[simp] theorem turn_waiters (s : Vigils) (w : Waiters) (call : Nat) (wait : Option Wait) :
    (s.turn w call wait).waiters = w := rfl

@[simp] theorem turn_waits_self (s : Vigils) (w : Waiters) (call : Nat) (wait : Option Wait) :
    (s.turn w call wait).waits call = wait :=
  Function.update_self call _ _

theorem turn_waits_of_ne (s : Vigils) (w : Waiters) {call other : Nat} (wait : Option Wait)
    (hne : other ≠ call) : (s.turn w call wait).waits other = s.waits other :=
  Function.update_of_ne hne _ _

/-! ## Histories -/

inductive Action
  /-- A call begins to wait. -/
  | begin (call : Nat) (i : IdleWait)
  /-- An event comes. -/
  | record (t : Instant) (e : Event)
  /-- A call looks how its wait stands, and may end with a result. -/
  | look (call : Nat) (i : IdleWait) (t : Instant) (result : Option (Except Error Value))
  /-- Time passes. -/
  | pass
  /-- A wait for an event is registered or withdrawn. -/
  | aside

/-- What has happened so far, first things first. -/
abbrev History := List Action

/-- The wait that a call began and what has happened since. -/
def since (call : Nat) : History → Option (IdleWait × History)
  | [] => none
  | .begin other i :: rest => if other = call then some (i, rest) else since call rest
  | _ :: rest => since call rest

def Action.time? (name : String) : Action → Option Instant
  | .record t e => if e.name = name then some t else none
  | _ => none

def times (name : String) (h : History) : List Instant := h.filterMap (Action.time? name)

/-- Whether an action makes the waiters forget when events of the name came: a call that waits for
them begins, or ends since it is quiet. -/
def Action.forgets (name : String) : Action → Bool
  | .begin _ i => i.names.contains name
  | .look _ i _ (some (.ok _)) => i.names.contains name
  | _ => false

/-- When an event of the name came last, if the waiters have not forgotten it since. -/
def lastHeard (name : String) (h : History) : Option Instant :=
  h.foldl (fun last a => if a.forgets name then none else (a.time? name).or last) none

def Action.isLookOf (call : Nat) : Action → Bool
  | .look other _ _ _ => other = call
  | _ => false

def Action.endsCall (call : Nat) : Action → Bool
  | .look other _ _ (some _) => other = call
  | _ => false

def looks (call : Nat) (h : History) : Nat := h.countP (Action.isLookOf call)

def ended (call : Nat) (h : History) : Bool := h.any (Action.endsCall call)

inductive Step (h : History) (s : Vigils) : Action → Vigils → Prop
  | begin (call : Nat) (i : IdleWait) (fresh : since call h = none) (now : i.started = s.now) :
      Step h s (.begin call i)
        (s.turn (Wait.forQuiet i s.waiters).1 call (some (Wait.forQuiet i s.waiters).2))
  | record (e : Event) :
      Step h s (.record s.now e) { s with waiters := s.waiters.record s.now e }
  | look {call : Nat} {i : IdleWait} {next : Instant} {w : Waiters} {standing : Wait.Standing}
      (there : s.waits call = some (.quiet i next))
      (looked : (Wait.quiet i next).look? s.waiters s.now = some (w, standing)) :
      Step h s (.look call i s.now standing.result?) (s.turn w call standing.wait?)
  | pass (t : Instant) (later : s.now ≤ t)
      (prompt : ∀ call wait, s.waits call = some wait → t ≤ wait.wake) :
      Step h s .pass { s with now := t }
  | register (name : String) (criteria : List (String × Criterion)) :
      Step h s .aside { s with waiters := (s.waiters.register s.now name criteria).1 }
  | withdraw (p : PendingWait) : Step h s .aside { s with waiters := s.waiters.withdraw p }

inductive Run (created : Instant) : History → Vigils → Prop
  | start : Run created [] ⟨created, Waiters.start created, fun _ => none⟩
  | snoc {h : History} {s s' : Vigils} {a : Action} (before : Run created h s)
      (step : Step h s a s') : Run created (h ++ [a]) s'

/-- A run up to an action of its history, and the step that is this action. -/
theorem Run.split {created : Instant} {past future : History} {a : Action} {s : Vigils}
    (run : Run created (past ++ a :: future) s) :
    ∃ s₁ s₂, Run created past s₁ ∧ Step past s₁ a s₂ := by
  generalize hh : past ++ a :: future = h at run
  induction run generalizing future with
  | start => simp at hh
  | @snoc h s s' b before step ih =>
      rcases History.at_end_or_before hh with ⟨-, rfl, rfl⟩ | ⟨future', -, hbefore⟩
      · exact ⟨s, s', before, step⟩
      · exact ih hbefore

/-! ## One more action -/

theorem since_snoc (call : Nat) (h : History) (a : Action) :
    since call (h ++ [a]) =
      match since call h with
      | some (i, between) => some (i, between ++ [a])
      | none =>
          match a with
          | .begin other i => if other = call then some (i, []) else none
          | _ => none := by
  induction h with
  | nil => cases a <;> rfl
  | cons b h ih =>
      cases b with
      | begin other i => by_cases hother : other = call <;> simp [since, hother, ih]
      | _ => simpa [since] using ih

/-- What has happened since a call began is what comes after its beginning. -/
theorem since_eq_some_iff {call : Nat} {h between : History} {i : IdleWait} :
    since call h = some (i, between) ↔
      ∃ past, h = past ++ .begin call i :: between ∧ since call past = none := by
  induction h with
  | nil => simp [since]
  | cons b h ih =>
      have hgoes : (b :: h = [] ++ .begin call i :: between ∨
          ∃ past, h = past ++ .begin call i :: between ∧ since call (b :: past) = none) ↔
          ∃ past, b :: h = past ++ .begin call i :: between ∧ since call past = none := by
        constructor
        · rintro (hhead | ⟨past, rfl, hnone⟩)
          · exact ⟨[], hhead, rfl⟩
          · exact ⟨b :: past, rfl, hnone⟩
        · rintro ⟨past, hsplit, hnone⟩
          cases past with
          | nil => exact .inl hsplit
          | cons c past =>
              obtain ⟨rfl, rfl⟩ := List.cons_eq_cons.mp hsplit
              exact .inr ⟨past, rfl, hnone⟩
      rw [← hgoes]
      cases b with
      | begin other j =>
          by_cases hother : other = call
          · simp [since, hother, and_comm]
          · simp [since, hother, ih]
      | _ => simp [since, ih]

/-- What has happened since a call began is an end of the history. -/
theorem eq_append_of_since {call : Nat} {h between : History} {i : IdleWait}
    (began : since call h = some (i, between)) :
    ∃ past, h = past ++ .begin call i :: between :=
  (since_eq_some_iff.mp began).imp fun _ => And.left

theorem times_snoc (name : String) (h : History) (a : Action) :
    times name (h ++ [a]) = times name h ++ (a.time? name).toList := by
  cases ha : a.time? name <;> simp [times, ha]

theorem lastHeard_snoc (name : String) (h : History) (a : Action) :
    lastHeard name (h ++ [a]) =
      if a.forgets name then none else (a.time? name).or (lastHeard name h) := by
  rw [lastHeard, List.foldl_append]
  rfl

theorem looks_snoc (call : Nat) (h : History) (a : Action) :
    looks call (h ++ [a]) = looks call h + if a.isLookOf call then 1 else 0 := by
  rw [looks, List.countP_append, List.countP_singleton]
  rfl

theorem ended_snoc (call : Nat) (h : History) (a : Action) :
    ended call (h ++ [a]) = (ended call h || a.endsCall call) := by
  simp [ended]

/-! ## What the waiters remember -/

/-- The waiters were made to forget when events of the name came, and none has come since. -/
def Forgotten (name : String) (h : History) : Prop :=
  ∃ before a after, h = before ++ a :: after ∧ a.forgets name = true ∧ times name after = []

theorem forgotten_snoc {name : String} {h : History} {a : Action} :
    Forgotten name (h ++ [a]) ↔
      a.forgets name = true ∨ a.time? name = none ∧ Forgotten name h := by
  constructor
  · rintro ⟨before, b, after, hsplit, hforgets, hnone⟩
    rcases History.at_end_or_before hsplit.symm with ⟨-, -, rfl⟩ | ⟨after', rfl, rfl⟩
    · exact .inl hforgets
    · rw [times_snoc, List.append_eq_nil_iff, Option.toList_eq_nil_iff] at hnone
      exact .inr ⟨hnone.2, before, b, after', rfl, hforgets, hnone.1⟩
  · rintro (hforgets | ⟨hnone, before, b, after, rfl, hforgets, hafter⟩)
    · exact ⟨h, a, [], rfl, hforgets, rfl⟩
    · refine ⟨before, b, after ++ [a], by simp, hforgets, ?_⟩
      rw [times_snoc, hafter, hnone]
      rfl

/-- The waiters remember the last event of a name unless they have forgotten it. -/
theorem lastHeard_eq_some_iff {name : String} {h : History} {t : Instant} :
    lastHeard name h = some t ↔ (times name h).getLast? = some t ∧ ¬ Forgotten name h := by
  induction h using List.reverseRecOn with
  | nil => simp [lastHeard, times]
  | append_singleton h a ih =>
      rw [lastHeard_snoc, times_snoc, forgotten_snoc]
      by_cases hforgets : a.forgets name = true
      · simp [hforgets]
      · cases hnow : a.time? name with
        | none => simp [hforgets, ih]
        | some r => simp [hforgets]

/-- A call that begins starts with a clean slate: what the waiters remember of its names came after
its beginning. -/
theorem lastHeard_eq_of_since {call : Nat} {h between : History} {i : IdleWait} {name : String}
    (began : since call h = some (i, between)) (named : name ∈ i.names) :
    lastHeard name h = lastHeard name between := by
  obtain ⟨past, rfl⟩ := eq_append_of_since began
  have hforgets : (Action.begin call i).forgets name = true := by
    simpa [Action.forgets] using named
  rw [lastHeard, List.foldl_append, List.foldl_cons, if_pos hforgets]
  rfl

theorem get?_forget (names : List String) (seen : Record Instant) (name : String) :
    (IdleWait.forget names seen).get? name =
      if names.contains name then none else seen.get? name := by
  induction names generalizing seen with
  | nil => rfl
  | cons first rest ih =>
      show (IdleWait.forget rest (seen.erase first)).get? name = _
      rw [ih, Record.get?_erase]
      by_cases hfirst : name = first <;> by_cases hrest : rest.contains name = true <;>
        simp_all

theorem lastSeen_start (i : IdleWait) (w : Waiters) (name : String) :
    (i.start w).lastSeen name = if i.names.contains name then none else w.lastSeen name :=
  get?_forget i.names w.lastByName name

theorem lastSeen_record (w : Waiters) (now : Instant) (e : Event) (name : String) :
    (w.record now e).lastSeen name = if e.name = name then some now else w.lastSeen name := by
  show (w.lastByName.insert e.name now).get? name = _
  rw [Record.get?_insert]
  by_cases hname : name = e.name
  · rw [if_pos hname, if_pos hname.symm]
  · rw [if_neg hname, if_neg fun heq => hname heq.symm]
    rfl

/-- What the waiters know after a history of when events came. -/
structure Memory (created : Instant) (h : History) (s : Vigils) : Prop where
  created_le : created ≤ s.waiters.lastAny
  lastAny_le : s.waiters.lastAny ≤ s.now
  records_le : ∀ t e, .record t e ∈ h → t ≤ s.waiters.lastAny
  remembers : ∀ name, s.waiters.lastSeen name = lastHeard name h
  /-- What is remembered is the latest that came. -/
  newest : ∀ name t, lastHeard name h = some t → ∀ r ∈ times name h, r ≤ t

theorem mem_times {name : String} {h : History} {t : Instant} :
    t ∈ times name h ↔ ∃ e, .record t e ∈ h ∧ e.name = name := by
  constructor
  · intro ht
    obtain ⟨a, ha, htime⟩ := List.mem_filterMap.mp ht
    cases a with
    | record r e =>
        by_cases hname : e.name = name
        · obtain rfl : r = t := by simpa [Action.time?, hname] using htime
          exact ⟨e, ha, hname⟩
        · simp [Action.time?, hname] at htime
    | _ => cases htime
  · rintro ⟨e, he, hname⟩
    exact List.mem_filterMap.mpr ⟨_, he, if_pos hname⟩

theorem Memory.times_le {created : Instant} {h : History} {s : Vigils} (m : Memory created h s)
    {name : String} {t : Instant} (ht : t ∈ times name h) : t ≤ s.now := by
  obtain ⟨e, he, -⟩ := mem_times.mp ht
  exact Nat.le_trans (m.records_le t e he) m.lastAny_le

theorem memory_start (created : Instant) :
    Memory created [] ⟨created, Waiters.start created, fun _ => none⟩ where
  created_le := Nat.le_refl _
  lastAny_le := Nat.le_refl _
  records_le := by simp
  remembers _ := rfl
  newest := by simp [lastHeard]

/-- What has to be shown of an action that brings no event. -/
theorem Memory.of_silent {created : Instant} {h : History} {s s' : Vigils} {a : Action}
    (m : Memory created h s) (silent : ∀ t e, a ≠ .record t e) (later : s.now ≤ s'.now)
    (any : s'.waiters.lastAny = s.waiters.lastAny)
    (seen : ∀ name,
      s'.waiters.lastSeen name = if a.forgets name then none else s.waiters.lastSeen name) :
    Memory created (h ++ [a]) s' := by
  -- No event is recorded, so no time is added to those of any name.
  have htime : ∀ name, a.time? name = none := by
    intro name
    cases a with
    | record t e => exact absurd rfl (silent t e)
    | _ => rfl
  have hheard : ∀ name,
      lastHeard name (h ++ [a]) = if a.forgets name then none else lastHeard name h := by
    intro name
    rw [lastHeard_snoc, htime]
    rfl
  refine ⟨by rw [any]; exact m.created_le, by rw [any]; exact Nat.le_trans m.lastAny_le later,
    ?_, ?_, ?_⟩
  · intro t e he
    rw [any]
    rcases List.mem_append.mp he with hold | hnew
    · exact m.records_le t e hold
    · exact absurd (List.mem_singleton.mp hnew).symm (silent t e)
  · intro name
    rw [seen, hheard, m.remembers]
  · intro name t ht r hr
    rw [times_snoc, htime] at hr
    rw [hheard] at ht
    split at ht
    · cases ht
    · exact m.newest name t ht r (by simpa using hr)

theorem Memory.record {created : Instant} {h : History} {s : Vigils} (m : Memory created h s)
    (e : Event) :
    Memory created (h ++ [.record s.now e]) { s with waiters := s.waiters.record s.now e } := by
  refine ⟨Nat.le_trans m.created_le m.lastAny_le, Nat.le_refl _, ?_, ?_, ?_⟩
  · intro t e' he
    rcases List.mem_append.mp he with hold | hnew
    · exact Nat.le_trans (m.records_le t e' hold) m.lastAny_le
    · obtain ⟨rfl, rfl⟩ : t = s.now ∧ e' = e := by simpa using hnew
      exact Nat.le_refl _
  · intro name
    show (s.waiters.record s.now e).lastSeen name = _
    rw [lastSeen_record, lastHeard_snoc, m.remembers]
    by_cases hname : e.name = name <;> simp [Action.forgets, Action.time?, hname]
  · intro name t ht r hr
    rw [times_snoc] at hr
    rw [lastHeard_snoc] at ht
    by_cases hname : e.name = name
    · -- The event is the newest since time does not run backwards.
      obtain rfl : s.now = t := by simpa [Action.forgets, Action.time?, hname] using ht
      rcases List.mem_append.mp hr with hold | hnew
      · exact m.times_le hold
      · obtain rfl : r = s.now := by simpa [Action.time?, hname] using hnew
        exact Nat.le_refl _
    · have hold : lastHeard name h = some t := by
        simpa [Action.forgets, Action.time?, hname] using ht
      exact m.newest name t hold r (by simpa [Action.time?, hname] using hr)

/-! ## When calls look -/

/-- What a look at a wait for quiet comes to. -/
theorem look?_quiet_cases {i : IdleWait} {next now : Instant} {w w' : Waiters}
    {standing : Wait.Standing} (looked : (Wait.quiet i next).look? w now = some (w', standing)) :
    next ≤ now ∧
      ((i.isQuiet w now = true ∧ w' = i.start w ∧
          standing = .ended (.ok (.int (Duration.millis (now - i.started))))) ∨
        (i.isQuiet w now = false ∧ w' = w ∧ i.deadline ≤ now ∧
          standing = .ended (.error (IdleWait.lateQuiet i.timeout))) ∨
        (i.isQuiet w now = false ∧ w' = w ∧ now < i.deadline ∧
          standing = .open (.quiet i (i.wake now)))) := by
  simp only [Wait.look?] at looked
  split at looked
  · cases looked
  · next hnext =>
      refine ⟨Nat.le_of_not_lt hnext, ?_⟩
      unfold IdleWait.look at looked
      by_cases hquiet : i.isQuiet w now = true
      · simp only [hquiet, if_true] at looked
        cases looked
        exact .inl ⟨hquiet, rfl, rfl⟩
      · have hloud : i.isQuiet w now = false := by simpa using hquiet
        by_cases hlate : i.deadline ≤ now
        · simp only [hquiet, hlate, if_true] at looked
          cases looked
          exact .inr (.inl ⟨hloud, rfl, hlate, rfl⟩)
        · simp only [hquiet, hlate, if_false] at looked
          cases looked
          exact .inr (.inr ⟨hloud, rfl, Nat.lt_of_not_le hlate, rfl⟩)

/-- No call looks later than at the first whole millisecond from its deadline on. -/
theorem pollAt_le (i : IdleWait) (k : Nat) : i.pollAt k ≤ i.deadline.tick := by
  cases k with
  | zero => exact Nat.le_trans (Nat.le_add_right _ _) (Instant.le_tick _)
  | succ k => exact Instant.tick_le_tick (Nat.min_le_right _ _)

/-- Which calls wait, and until when, after a history. -/
structure Punctual (h : History) (s : Vigils) : Prop where
  absent : ∀ call, since call h = none → s.waits call = none
  waits : ∀ call i between, since call h = some (i, between) →
    s.waits call =
      if ended call between then none else some (.quiet i (i.pollAt (looks call between)))
  awake : ∀ call i next, s.waits call = some (.quiet i next) → s.now ≤ next

/-- A call that waits has begun and not ended, and knows when to look. -/
theorem Punctual.begun_of_waits {h : History} {s : Vigils} (p : Punctual h s) {call : Nat}
    {i : IdleWait} {next : Instant} (there : s.waits call = some (.quiet i next)) :
    ∃ between, since call h = some (i, between) ∧ ended call between = false ∧
      next = i.pollAt (looks call between) := by
  cases began : since call h with
  | none => simp [p.absent call began] at there
  | some entry =>
      obtain ⟨j, between⟩ := entry
      have hwaits := p.waits call j between began
      rw [there] at hwaits
      split at hwaits
      · cases hwaits
      · next hgoing =>
          simp only [Option.some.injEq, Wait.quiet.injEq] at hwaits
          obtain ⟨rfl, rfl⟩ := hwaits
          exact ⟨between, rfl, by simpa using hgoing, rfl⟩

theorem punctual_start (created : Instant) :
    Punctual [] ⟨created, Waiters.start created, fun _ => none⟩ :=
  ⟨fun _ _ => rfl, by simp [since], by simp⟩

/-- What has to be shown of an action that is no call's. -/
theorem Punctual.of_others {h : History} {s s' : Vigils} {a : Action} (p : Punctual h s)
    (begins : ∀ call i, a ≠ .begin call i) (looks : ∀ call, a.isLookOf call = false)
    (ends : ∀ call, a.endsCall call = false) (same : s'.waits = s.waits)
    (prompt : ∀ call i next, s.waits call = some (.quiet i next) → s'.now ≤ next) :
    Punctual (h ++ [a]) s' := by
  refine ⟨?_, ?_, ?_⟩
  · intro call hnone
    rw [since_snoc] at hnone
    cases began : since call h with
    | none => rw [same, p.absent call began]
    | some entry => simp [began] at hnone
  · intro call i between hbegan
    rw [since_snoc] at hbegan
    cases began : since call h with
    | none =>
        rw [began] at hbegan
        cases a with
        | begin other j => exact absurd rfl (begins other j)
        | _ => cases hbegan
    | some entry =>
        obtain ⟨j, earlier⟩ := entry
        rw [began] at hbegan
        cases hbegan
        rw [same, p.waits call _ _ began, ended_snoc, looks_snoc, ends, looks]
        simp
  · intro call i next there
    rw [same] at there
    exact prompt call i next there

theorem Punctual.begin {h : History} {s : Vigils} (p : Punctual h s) (call : Nat) (i : IdleWait)
    (fresh : since call h = none) (now : i.started = s.now) (w : Waiters) :
    Punctual (h ++ [.begin call i]) (s.turn w call (some (.quiet i i.started))) := by
  refine ⟨?_, ?_, ?_⟩
  · -- Who has not begun by now had not begun before, and is another call.
    intro other hnone
    rw [since_snoc] at hnone
    cases began : since other h with
    | some entry => simp [began] at hnone
    | none =>
        have hother : other ≠ call := by
          rintro rfl
          simp [began] at hnone
        exact (s.turn_waits_of_ne _ _ hother).trans (p.absent other began)
  · intro other j between hbegan
    rw [since_snoc] at hbegan
    cases began : since other h with
    | none =>
        rw [began] at hbegan
        by_cases hother : call = other
        · obtain ⟨rfl, rfl⟩ : i = j ∧ [] = between := by simpa [hother] using hbegan
          subst hother
          exact s.turn_waits_self _ _ _
        · simp [hother] at hbegan
    | some entry =>
        obtain ⟨j', earlier⟩ := entry
        rw [began] at hbegan
        cases hbegan
        have hother : other ≠ call := by
          rintro rfl
          rw [fresh] at began
          cases began
        refine (s.turn_waits_of_ne _ _ hother).trans ?_
        rw [p.waits other _ _ began, ended_snoc, looks_snoc]
        simp [Action.endsCall, Action.isLookOf]
  · intro other j next there
    by_cases hother : other = call
    · subst hother
      rw [turn_waits_self] at there
      cases there
      exact Nat.le_of_eq now.symm
    · rw [s.turn_waits_of_ne _ _ hother] at there
      exact p.awake other j next there

/-- A call looks at the very instant it waited for. -/
theorem Punctual.now_eq {h : History} {s : Vigils} (p : Punctual h s) {call : Nat} {i : IdleWait}
    {next : Instant} (there : s.waits call = some (.quiet i next)) (due : next ≤ s.now) :
    s.now = next :=
  Nat.le_antisymm (p.awake call i next there) due

theorem Punctual.look {h : History} {s : Vigils} (p : Punctual h s) {call : Nat} {i : IdleWait}
    {next : Instant} {w : Waiters} {standing : Wait.Standing}
    (there : s.waits call = some (.quiet i next))
    (looked : (Wait.quiet i next).look? s.waiters s.now = some (w, standing)) :
    Punctual (h ++ [.look call i s.now standing.result?]) (s.turn w call standing.wait?) := by
  obtain ⟨between, began, going, hnext⟩ := p.begun_of_waits there
  obtain ⟨hdue, hcases⟩ := look?_quiet_cases looked
  -- A look is made when it is due, which settles when the next one is.
  have hnow : s.now = i.pollAt (looks call between) := hnext ▸ p.now_eq there hdue
  refine ⟨?_, ?_, ?_⟩
  · intro other hnone
    rw [since_snoc] at hnone
    cases hother : since other h with
    | some entry => simp [hother] at hnone
    | none =>
        have hne : other ≠ call := by
          rintro rfl
          rw [began] at hother
          cases hother
        exact (s.turn_waits_of_ne _ _ hne).trans (p.absent other hother)
  · intro other j later hbegan
    rw [since_snoc] at hbegan
    cases hother : since other h with
    | none => simp [hother] at hbegan
    | some entry =>
        obtain ⟨j', earlier⟩ := entry
        rw [hother] at hbegan
        cases hbegan
        rw [ended_snoc, looks_snoc]
        by_cases hne : other = call
        · subst hne
          rw [began] at hother
          cases hother
          rw [turn_waits_self]
          rcases hcases with ⟨-, -, rfl⟩ | ⟨-, -, -, rfl⟩ | ⟨-, -, -, rfl⟩
          · simp [Wait.Standing.wait?, Wait.Standing.result?, Action.endsCall]
          · simp [Wait.Standing.wait?, Wait.Standing.result?, Action.endsCall]
          · simp [Wait.Standing.wait?, Wait.Standing.result?, Action.endsCall, Action.isLookOf,
              going, IdleWait.pollAt, ← hnow]
        · have hcall : call ≠ other := fun heq => hne heq.symm
          refine (s.turn_waits_of_ne _ _ hne).trans ?_
          rw [p.waits other _ _ hother]
          cases standing <;>
            simp [Wait.Standing.result?, Action.endsCall, Action.isLookOf, hcall]
  · intro other j next' hthere
    by_cases hne : other = call
    · subst hne
      rw [turn_waits_self] at hthere
      rcases hcases with ⟨-, -, rfl⟩ | ⟨-, -, -, rfl⟩ | ⟨-, -, hearly, rfl⟩
      · cases hthere
      · cases hthere
      · cases hthere
        exact Nat.le_trans (Nat.le_min.mpr ⟨Nat.le_add_right _ _, Nat.le_of_lt hearly⟩)
          (Instant.le_tick _)
    · rw [s.turn_waits_of_ne _ _ hne] at hthere
      exact p.awake other j next' hthere

/-! ## Every run -/

theorem Memory.step {created : Instant} {h : History} {s s' : Vigils} {a : Action}
    (m : Memory created h s) (step : Step h s a s') : Memory created (h ++ [a]) s' := by
  cases step with
  | begin call i fresh now =>
      exact m.of_silent (by simp) (Nat.le_refl _) rfl fun name => lastSeen_start i s.waiters name
  | record e => exact m.record e
  | look there looked =>
      refine m.of_silent (by simp) (Nat.le_refl _) ?_ fun name => ?_
      · obtain ⟨-, ⟨-, rfl, -⟩ | ⟨-, rfl, -⟩ | ⟨-, rfl, -⟩⟩ := look?_quiet_cases looked <;> rfl
      · obtain ⟨-, ⟨-, rfl, rfl⟩ | ⟨-, rfl, -, rfl⟩ | ⟨-, rfl, -, rfl⟩⟩ := look?_quiet_cases looked
        · exact lastSeen_start _ s.waiters name
        · rfl
        · rfl
  | pass t later prompt => exact m.of_silent (by simp) later rfl fun name => rfl
  | register name criteria => exact m.of_silent (by simp) (Nat.le_refl _) rfl fun name => rfl
  | withdraw p => exact m.of_silent (by simp) (Nat.le_refl _) rfl fun name => rfl

theorem Punctual.step {h : History} {s s' : Vigils} {a : Action} (p : Punctual h s)
    (step : Step h s a s') : Punctual (h ++ [a]) s' := by
  cases step with
  | begin call i fresh now => exact p.begin call i fresh now _
  | look there looked => exact p.look there looked
  | record e =>
      exact p.of_others (by simp) (fun _ => rfl) (fun _ => rfl) rfl p.awake
  | pass t later prompt =>
      exact p.of_others (by simp) (fun _ => rfl) (fun _ => rfl) rfl
        fun call i next there => prompt call _ there
  | register name criteria =>
      exact p.of_others (by simp) (fun _ => rfl) (fun _ => rfl) rfl p.awake
  | withdraw q => exact p.of_others (by simp) (fun _ => rfl) (fun _ => rfl) rfl p.awake

theorem Run.memory {created : Instant} {h : History} {s : Vigils} (run : Run created h s) :
    Memory created h s := by
  induction run with
  | start => exact memory_start created
  | snoc before step ih => exact ih.step step

theorem Run.punctual {created : Instant} {h : History} {s : Vigils} (run : Run created h s) :
    Punctual h s := by
  induction run with
  | start => exact punctual_start created
  | snoc before step ih => exact ih.step step

end Vigils

end TabPilot
