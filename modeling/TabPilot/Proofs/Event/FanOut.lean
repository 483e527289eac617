import Mathlib.Data.List.Forall2
import TabPilot.Proofs.Client.Callbacks
import TabPilot.Proofs.Connection.Dispatching
import TabPilot.Proofs.Event.Globs
import TabPilot.Proofs.History

set_option autoImplicit false

/-! # From an event to the callbacks of its domain

Callbacks are registered and removed while events are being delivered, by other callbacks too, and
an event may come while another one is being delivered. `FanOut.Step` says what can happen next in
any such mixture: a delivery takes the callbacks for its event from the registry once, and then
runs them in turn. `FanOut.steps_trigger` is that running `runCallbacks` on the listeners of an
event is such a delivery, and `FanOut.steps_dispatchEvent` that a rehearsal delivers its events
so. A history is what has happened, in order; `FanOut.Run.faithful` says from
the history alone which callbacks an event has to be told to, and that these are told.
-/

namespace TabPilot.FanOut

variable {α : Type}

/-! ## What can happen -/

/-- How far the delivery of an event has come. -/
inductive Progress (α : Type)
  /-- No callback is running, and these are to be run. -/
  | between (left : List α)
  /-- A callback is running, and these are to be run after it. -/
  | inside (f : α) (left : List α)
  | finished

/-- A domain: its callbacks, and the deliveries of its events, in the order in which they began. -/
structure State (α : Type) where
  registry : Registry α
  deliveries : List (Progress α)

/-- What happens. A delivery is known by its number. -/
inductive Deed (α : Type)
  | on (name : String) (f : α) (answer : Except Error HandlerId)
  | remove (id : HandlerId) (answer : Bool)
  | trigger (event : String)
  | call (k : Nat) (f : α)
  | answer (k : Nat) (p : Propagation)
  | finish (k : Nat)

/-- Puts a delivery at another stage. -/
def State.advance (s : State α) (k : Nat) (p : Progress α) : State α :=
  { s with deliveries := s.deliveries.set k p }

/-- What can happen next. Registering, removing and triggering are always possible, whatever is
being delivered. -/
inductive Step (s : State α) : Deed α → State α → Prop
  | on (name : String) (f : α) {r : Registry α} {id : HandlerId}
      (accepted : s.registry.on name f = .ok (r, id)) :
      Step s (.on name f (.ok id)) { s with registry := r }
  | refuse {name : String} {f : α} {e : Error} (refused : s.registry.on name f = .error e) :
      Step s (.on name f (.error e)) s
  | remove (id : HandlerId) :
      Step s (.remove id (s.registry.holds id)) { s with registry := s.registry.remove id }
  | trigger (event : String) : Step s (.trigger event)
      { s with deliveries := s.deliveries ++ [.between (s.registry.listeners event)] }
  | call {k : Nat} {f : α} {left : List α} (next : s.deliveries[k]? = some (.between (f :: left))) :
      Step s (.call k f) (s.advance k (.inside f left))
  | continue {k : Nat} {f : α} {left : List α}
      (running : s.deliveries[k]? = some (.inside f left)) :
      Step s (.answer k .continue) (s.advance k (.between left))
  | stop {k : Nat} {f : α} {left : List α} (running : s.deliveries[k]? = some (.inside f left)) :
      Step s (.answer k .stop) (s.advance k (.between []))
  | finish {k : Nat} (last : s.deliveries[k]? = some (.between [])) :
      Step s (.finish k) (s.advance k .finished)

inductive Steps (s : State α) : List (Deed α) → State α → Prop
  | refl : Steps s [] s
  | next {h : List (Deed α)} {d : Deed α} {t u : State α} (before : Steps s h t)
      (step : Step t d u) : Steps s (h ++ [d]) u

/-- What has happened to a domain since it came about. -/
def Run (domain : String) (h : List (Deed α)) (s : State α) : Prop :=
  Steps ⟨.empty domain, []⟩ h s

/-! ## What a history says -/

/-- A callback as it was registered. -/
structure Enrolment (α : Type) where
  id : HandlerId
  name : String
  callback : α

def Deed.removes (id : HandlerId) : Deed α → Bool
  | .remove id' _ => id' = id
  | _ => false

def Deed.issues? : Deed α → Option HandlerId
  | .on _ _ (.ok id) => some id
  | _ => none

def Deed.triggers : Deed α → Bool
  | .trigger _ => true
  | _ => false

def Deed.calls? (k : Nat) : Deed α → Option α
  | .call k' f => if k' = k then some f else none
  | _ => none

def Deed.answers? (k : Nat) : Deed α → Option Propagation
  | .answer k' p => if k' = k then some p else none
  | _ => none

/-- What was registered and not removed since, in order. -/
def standing : List (Deed α) → List (Enrolment α)
  | [] => []
  | .on name f (.ok id) :: later =>
      if later.any (Deed.removes id) then standing later else ⟨id, name, f⟩ :: standing later
  | _ :: later => standing later

def issued (h : List (Deed α)) : List HandlerId := h.filterMap Deed.issues?

def triggers (h : List (Deed α)) : Nat := h.countP Deed.triggers

def called (k : Nat) (h : List (Deed α)) : List α := h.filterMap (Deed.calls? k)

/-- What they have answered, in order. -/
def answered (k : Nat) (h : List (Deed α)) : List Propagation := h.filterMap (Deed.answers? k)

/-- The callbacks that an event has to be told to: those that stand when it comes and that mean
it, in order of registration. -/
def due (domain : String) (past : List (Deed α)) (event : String) : List α :=
  ((standing past).filter fun x => Registry.Means domain x.name event).map Enrolment.callback

/-- **How an event is to be delivered**: to the callbacks that it has to be told to, up to and
including the first that stops it. -/
structure Serves (due called : List α) (answered : List Propagation) (finished : Prop) : Prop where
  inOrder : called <+: due
  -- Each callback answers before the next one is called.
  oneByOne : called.length = answered.length ∨ called.length = answered.length + 1
  goesOn : ∀ p ∈ answered.dropLast, p = .continue
  stops : .stop ∈ answered → called.length = answered.length
  complete : finished → called.length = answered.length ∧ (called = due ∨ .stop ∈ answered)

/-! ## The callbacks that stand -/

/-- One more deed takes away what it removes, and puts what it registers behind the others. -/
theorem standing_append (h : List (Deed α)) (d : Deed α) : standing (h ++ [d]) =
    (standing h).filter (fun x => !d.removes x.id) ++ standing [d] := by
  induction h with
  | nil => rfl
  | cons e h ih =>
      cases e with
      | on name f answer =>
          cases answer with
          | error e => exact ih
          | ok id =>
              simp only [List.cons_append, standing, List.any_append, List.any_cons, List.any_nil,
                Bool.or_false, ih]
              by_cases hlater : h.any (Deed.removes id) = true
              · simp [hlater]
              · by_cases hd : d.removes id = true <;> simp [hlater, hd]
      | _ => exact ih

theorem mem_standing_cons {x : Enrolment α} {d : Deed α} {h : List (Deed α)} :
    x ∈ standing (d :: h) ↔
      (d = .on x.name x.callback (.ok x.id) ∧ h.any (Deed.removes x.id) = false) ∨
        x ∈ standing h := by
  cases d with
  | on name f answer =>
      cases answer with
      | error e => simp [standing]
      | ok id =>
          rw [standing]
          by_cases hlater : h.any (Deed.removes id) = true
          · rw [if_pos hlater]
            refine ⟨.inr, fun hx => hx.resolve_left fun hx => ?_⟩
            obtain ⟨heq, hnot⟩ := hx
            cases heq
            rw [hlater] at hnot
            cases hnot
          · rw [if_neg hlater, List.mem_cons]
            refine or_congr ⟨?_, ?_⟩ Iff.rfl
            · rintro rfl
              exact ⟨rfl, Bool.eq_false_iff.mpr hlater⟩
            · rintro ⟨heq, -⟩
              cases heq
              rfl
  | _ => simp [standing]

/-- What stands was registered at some point and not removed behind it. -/
theorem mem_standing_iff {x : Enrolment α} {h : List (Deed α)} :
    x ∈ standing h ↔ ∃ past future, h = past ++ .on x.name x.callback (.ok x.id) :: future ∧
      future.any (Deed.removes x.id) = false := by
  induction h with
  | nil => simp [standing]
  | cons d h ih =>
      rw [mem_standing_cons, ih]
      constructor
      · rintro (⟨rfl, hnot⟩ | ⟨past, future, rfl, hnot⟩)
        · exact ⟨[], h, rfl, hnot⟩
        · exact ⟨d :: past, future, rfl, hnot⟩
      · rintro ⟨past, future, heq, hnot⟩
        cases past with
        | nil =>
            obtain ⟨rfl, rfl⟩ := List.cons.inj heq
            exact .inl ⟨rfl, hnot⟩
        | cons e past =>
            obtain ⟨rfl, rfl⟩ := List.cons.inj heq
            exact .inr ⟨past, future, rfl, hnot⟩

theorem standing_append_kept (h : List (Deed α)) {d : Deed α}
    (hremoves : ∀ id, d.removes id = false) : standing (h ++ [d]) = standing h ++ standing [d] := by
  rw [standing_append, List.filter_eq_self.mpr fun x _ => by rw [hremoves, Bool.not_false]]

theorem standing_append_remove (h : List (Deed α)) (id : HandlerId) (answer : Bool) :
    standing (h ++ [.remove id answer]) = (standing h).filter fun x => x.id ≠ id := by
  rw [standing_append]
  refine (List.append_nil _).trans (List.filter_congr fun x _ => ?_)
  simp only [Deed.removes, eq_comm, decide_not]

/-- What has been given one id is one registration. -/
theorem eq_of_issues {h : List (Deed α)} (nodup : (issued h).Nodup) {d e : Deed α}
    {id : HandlerId} (hd : d ∈ h) (he : e ∈ h) (hid : d.issues? = some id)
    (hie : e.issues? = some id) : d = e := by
  induction h with
  | nil => cases hd
  | cons a h ih =>
      cases ha : a.issues? with
      | none =>
          rw [issued, List.filterMap_cons_none ha] at nodup
          have hne {b : Deed α} (hb : b.issues? = some id) : b ≠ a := by
            rintro rfl
            rw [ha] at hb
            cases hb
          exact ih nodup (List.mem_of_ne_of_mem (hne hid) hd) (List.mem_of_ne_of_mem (hne hie) he)
      | some id' =>
          rw [issued, List.filterMap_cons_some ha, List.nodup_cons] at nodup
          have hlater {b : Deed α} (hb : b ∈ h) (hib : b.issues? = some id) : id' ≠ id := by
            rintro rfl
            exact nodup.1 (List.mem_filterMap.mpr ⟨b, hb, hib⟩)
          rcases List.mem_cons.mp hd with rfl | hd'
          · obtain rfl : id' = id := Option.some.inj (ha.symm.trans hid)
            rcases List.mem_cons.mp he with rfl | he'
            · rfl
            · exact absurd rfl (hlater he' hie)
          · rcases List.mem_cons.mp he with rfl | he'
            · exact absurd (Option.some.inj (ha.symm.trans hie)) (hlater hd' hid)
            · exact ih nodup.2 hd' he'

/-- A registered callback is one that was registered, and for the events that were meant. -/
structure Registers (domain : String) (x : Enrolment α) (y : Registration α) : Prop where
  id : y.id = x.id
  callback : y.callback = x.callback
  fits : ∀ event, y.matcher.fits event = true ↔ Registry.Means domain x.name event

/-- The callbacks of a domain are those that stand. -/
structure Holds (domain : String) (h : List (Deed α)) (r : Registry α) : Prop where
  tidy : r.Tidy domain
  distinct : r.Distinct
  stands : List.Forall₂ (Registers domain) (standing h) r.registrations
  numbered : issued h = (List.range r.lastNumber).map fun i => ⟨domain, i + 1⟩

variable {domain : String} {h : List (Deed α)} {d : Deed α} {s t : State α}

namespace Holds

theorem empty (domain : String) : Holds domain ([] : List (Deed α)) (.empty domain) :=
  ⟨Registry.tidy_empty domain, Registry.distinct_empty domain, .nil, rfl⟩

theorem on {r r' : Registry α} (holds : Holds domain h r) {name : String} {f : α} {id : HandlerId}
    (accepted : r.on name f = .ok (r', id)) :
    Holds domain (h ++ [.on name f (.ok id)]) r' := by
  have htidy := holds.tidy.on accepted
  have hdistinct := holds.distinct.on holds.tidy accepted
  obtain ⟨full, matcher, hfull, hmatcher, rfl, rfl⟩ := Registry.exists_of_on_eq_ok accepted
  refine ⟨htidy, hdistinct, ?_, ?_⟩
  · rw [standing_append_kept h fun _ => rfl]
    refine List.rel_append holds.stands (.cons ⟨rfl, rfl, fun event => ?_⟩ .nil)
    rw [← holds.tidy.domain]
    exact (Registry.means_iff_fits hfull hmatcher).symm
  · rw [issued, List.filterMap_append, ← issued, holds.numbered, List.range_succ, List.map_append,
      ← holds.tidy.domain]
    rfl

theorem remove {r : Registry α} (holds : Holds domain h r) (id : HandlerId) (answer : Bool) :
    Holds domain (h ++ [.remove id answer]) (r.remove id) := by
  refine ⟨holds.tidy.remove id, holds.distinct.remove id, ?_, ?_⟩
  · rw [standing_append_remove]
    exact List.rel_filter (fun x y hxy => by simp [hxy.id]) holds.stands
  · rw [issued, List.filterMap_append, ← issued, holds.numbered]
    exact List.append_nil _

theorem other {r : Registry α} (holds : Holds domain h r) (hd : standing [d] = [])
    (hremoves : ∀ id, d.removes id = false) (hissues : d.issues? = none) :
    Holds domain (h ++ [d]) r := by
  refine ⟨holds.tidy, holds.distinct, ?_, ?_⟩
  · rw [standing_append_kept h hremoves, hd, List.append_nil]
    exact holds.stands
  · rw [← holds.numbered, issued, List.filterMap_append, List.filterMap_cons_none hissues]
    exact List.append_nil _

/-- **One more deed.** -/
theorem step (holds : Holds domain h s.registry) (step : Step s d t) :
    Holds domain (h ++ [d]) t.registry := by
  cases step with
  | on name f accepted => exact holds.on accepted
  | remove id => exact holds.remove id _
  | _ => exact holds.other rfl (fun _ => rfl) rfl

theorem of_run (run : Run domain h s) : Holds domain h s.registry := by
  induction run with
  | refl => exact empty domain
  | next _ step ih => exact ih.step step

/-- No id is given out twice. -/
theorem nodup {r : Registry α} (holds : Holds domain h r) : (issued h).Nodup := by
  rw [holds.numbered]
  refine List.Nodup.map (fun i j hij => ?_) List.nodup_range
  simpa using hij

/-- What stands under an id is what is registered under it. -/
theorem stands_iff {r : Registry α} (holds : Holds domain h r) {id : HandlerId} {f : α} :
    (∃ x ∈ standing h, x.id = id ∧ x.callback = f) ↔
      ∃ y ∈ r.registrations, y.id = id ∧ y.callback = f := by
  have hsame : List.Forall₂ (· = ·) ((standing h).map fun x => (x.id, x.callback))
      (r.registrations.map fun y => (y.id, y.callback)) :=
    List.rel_map (fun _ _ hxy => Prod.ext hxy.id.symm hxy.callback.symm) holds.stands
  rw [List.forall₂_eq_eq_eq] at hsame
  have hmem := Iff.of_eq (congrArg ((id, f) ∈ ·) hsame)
  simpa only [List.mem_map, Prod.mk.injEq] using hmem

/-- The callbacks for an event are those that it has to be told to. -/
theorem listeners {r : Registry α} (holds : Holds domain h r) (event : String) :
    r.listeners event = due domain h event := by
  have hsame : List.Forall₂ (· = ·) (due domain h event) (r.listeners event) :=
    List.rel_map (fun _ _ hxy => hxy.callback.symm)
      (List.rel_filter (fun x y hxy => by simp [hxy.fits]) holds.stands)
  rw [List.forall₂_eq_eq_eq] at hsame
  exact hsame.symm

end Holds

/-! ## One delivery -/

def Deed.about? : Deed α → Option Nat
  | .call k _ => some k
  | .answer k _ => some k
  | .finish k => some k
  | _ => none

/-- What was called and answered in a delivery that has come so far. -/
inductive Course (due : List α) : List α → List Propagation → Progress α → Prop
  | between {past left : List α} (split : due = past ++ left) :
      Course due past (List.replicate past.length .continue) (.between left)
  | inside {past left : List α} {f : α} (split : due = past ++ f :: left) :
      Course due (past ++ [f]) (List.replicate past.length .continue) (.inside f left)
  | stopped {past left : List α} {f : α} (split : due = past ++ f :: left) :
      Course due (past ++ [f]) (List.replicate past.length .continue ++ [.stop]) (.between [])
  | finished {called : List α} {answered : List Propagation}
      (last : Course due called answered (.between [])) : Course due called answered .finished

theorem Course.serves {due called : List α} {answered : List Propagation} {p : Progress α}
    (course : Course due called answered p) : Serves due called answered (p = .finished) := by
  induction course with
  | @between past left split =>
      refine ⟨⟨left, split.symm⟩, .inl (by simp), fun q hq => ?_, fun hstop => ?_, fun h => ?_⟩
      · exact List.eq_of_mem_replicate (List.dropLast_subset _ hq)
      · cases List.eq_of_mem_replicate hstop
      · cases h
  | @inside past left f split =>
      refine ⟨⟨left, by simp [split]⟩, .inr (by simp), fun q hq => ?_, fun hstop => ?_, fun h => ?_⟩
      · exact List.eq_of_mem_replicate (List.dropLast_subset _ hq)
      · cases List.eq_of_mem_replicate hstop
      · cases h
  | @stopped past left f split =>
      refine ⟨⟨left, by simp [split]⟩, .inl (by simp), fun q hq => ?_, fun _ => by simp,
        fun h => ?_⟩
      · rw [List.dropLast_concat] at hq
        exact List.eq_of_mem_replicate hq
      · cases h
  | finished last ih =>
      refine ⟨ih.inOrder, ih.oneByOne, ih.goesOn, ih.stops, fun _ => ?_⟩
      cases last with
      | between split => exact ⟨by simp, .inl (by simp [split])⟩
      | stopped split => exact ⟨by simp, .inr (by simp)⟩

theorem Course.of_between {due called left : List α} {answered : List Propagation} {f : α}
    (course : Course due called answered (.between (f :: left))) :
    due = called ++ f :: left ∧ answered = List.replicate called.length .continue := by
  cases course with
  | between split => exact ⟨split, rfl⟩

theorem Course.of_inside {due called left : List α} {answered : List Propagation} {f : α}
    (course : Course due called answered (.inside f left)) :
    ∃ past, due = past ++ f :: left ∧ called = past ++ [f] ∧
      answered = List.replicate past.length .continue := by
  cases course with
  | inside split => exact ⟨_, split, rfl, rfl⟩

theorem called_append (k : Nat) (h : List (Deed α)) (d : Deed α) :
    called k (h ++ [d]) = called k h ++ (d.calls? k).toList := by
  rw [called, List.filterMap_append]
  cases hcalls : d.calls? k <;> simp [hcalls, called]

theorem answered_append (k : Nat) (h : List (Deed α)) (d : Deed α) :
    answered k (h ++ [d]) = answered k h ++ (d.answers? k).toList := by
  rw [answered, List.filterMap_append]
  cases hanswers : d.answers? k <;> simp [hanswers, answered]

/-- What is about another delivery is no part of this one. -/
theorem calls?_eq_none {k : Nat} (hd : d.about? ≠ some k) :
    d.calls? k = none ∧ d.answers? k = none := by
  cases d with
  | call k' f =>
      have hne : k' ≠ k := fun heq => hd (congrArg some heq)
      exact ⟨if_neg hne, rfl⟩
  | answer k' p =>
      have hne : k' ≠ k := fun heq => hd (congrArg some heq)
      exact ⟨rfl, if_neg hne⟩
  | _ => exact ⟨rfl, rfl⟩

theorem called_eq_nil {k : Nat} (apart : ∀ d ∈ h, d.about? ≠ some k) :
    called k h = [] ∧ answered k h = [] :=
  ⟨List.filterMap_eq_nil_iff.mpr fun d hd => (calls?_eq_none (apart d hd)).1,
    List.filterMap_eq_nil_iff.mpr fun d hd => (calls?_eq_none (apart d hd)).2⟩

theorem called_append_other {k : Nat} (h : List (Deed α)) (hd : d.about? ≠ some k) :
    called k (h ++ [d]) = called k h ∧ answered k (h ++ [d]) = answered k h := by
  obtain ⟨hcalls, hanswers⟩ := calls?_eq_none hd
  rw [called_append, answered_append, hcalls, hanswers]
  simp

theorem Step.deliveries_other {k : Nat} (step : Step s d t) (hk : k < s.deliveries.length)
    (hd : d.about? ≠ some k) : t.deliveries[k]? = s.deliveries[k]? := by
  have hset {k' : Nat} (p : Progress α) (hne : some k' ≠ some k) :
      (s.deliveries.set k' p)[k]? = s.deliveries[k]? :=
    List.getElem?_set_ne fun heq => hne (congrArg some heq)
  cases step with
  | trigger event => exact List.getElem?_append_left hk
  | call next => exact hset _ hd
  | «continue» running => exact hset _ hd
  | stop running => exact hset _ hd
  | finish last => exact hset _ hd
  | _ => rfl

/-- **One more deed, seen from a delivery.** -/
theorem Course.step {due : List α} {k : Nat} {p : Progress α} (step : Step s d t)
    (hp : s.deliveries[k]? = some p) (course : Course due (called k h) (answered k h) p) :
    ∃ q, t.deliveries[k]? = some q ∧
      Course due (called k (h ++ [d])) (answered k (h ++ [d])) q ∧
      (q = .finished ↔ p = .finished ∨ d = .finish k) := by
  obtain ⟨hk, -⟩ := List.getElem?_eq_some_iff.mp hp
  -- A deed of another delivery leaves this one where it is.
  by_cases hd : d.about? = some k
  · have hself (q : Progress α) : (s.advance k q).deliveries[k]? = some q :=
      List.getElem?_set_self hk
    rw [called_append, answered_append]
    cases step with
    | @call k' f left next =>
        obtain rfl : k' = k := Option.some.inj hd
        obtain rfl : p = .between (f :: left) := Option.some.inj (hp.symm.trans next)
        obtain ⟨split, hanswered⟩ := course.of_between
        refine ⟨_, hself _, ?_, by simp⟩
        simpa [Deed.calls?, Deed.answers?, hanswered] using Course.inside split
    | @«continue» k' f left running =>
        obtain rfl : k' = k := Option.some.inj hd
        obtain rfl : p = .inside f left := Option.some.inj (hp.symm.trans running)
        obtain ⟨past, split, hcalled, hanswered⟩ := course.of_inside
        refine ⟨_, hself _, ?_, by simp⟩
        have hbetween : Course due (past ++ [f])
            (List.replicate (past ++ [f]).length .continue) (.between left) :=
          .between (by simp [split])
        simpa [Deed.calls?, Deed.answers?, hcalled, hanswered, List.replicate_succ'] using hbetween
    | @stop k' f left running =>
        obtain rfl : k' = k := Option.some.inj hd
        obtain rfl : p = .inside f left := Option.some.inj (hp.symm.trans running)
        obtain ⟨past, split, hcalled, hanswered⟩ := course.of_inside
        refine ⟨_, hself _, ?_, by simp⟩
        simpa [Deed.calls?, Deed.answers?, hcalled, hanswered] using Course.stopped split
    | @finish k' last =>
        obtain rfl : k' = k := Option.some.inj hd
        obtain rfl : p = .between [] := Option.some.inj (hp.symm.trans last)
        refine ⟨_, hself _, ?_, by simp⟩
        simpa [Deed.calls?, Deed.answers?] using course.finished
    | _ => cases hd
  · obtain ⟨hcalled, hanswered⟩ := called_append_other h hd
    refine ⟨p, (step.deliveries_other hk hd).trans hp, by rwa [hcalled, hanswered], ?_⟩
    constructor
    · exact .inl
    · rintro (hover | rfl)
      · exact hover
      · exact absurd rfl hd

/-! ## A whole history -/

/-- The deliveries of a domain are those of the events that have come, each of them as far as the
history says. -/
structure Delivers (domain : String) (h : List (Deed α)) (s : State α) : Prop where
  count : s.deliveries.length = triggers h
  begun : ∀ d ∈ h, ∀ k, d.about? = some k → k < triggers h
  courses : ∀ past event future, h = past ++ .trigger event :: future →
    ∃ p, s.deliveries[triggers past]? = some p ∧
      Course (due domain past event) (called (triggers past) h) (answered (triggers past) h) p ∧
      (p = .finished ↔ .finish (triggers past) ∈ h)

theorem triggers_append (h : List (Deed α)) (d : Deed α) :
    triggers (h ++ [d]) = triggers h + if d.triggers then 1 else 0 := by
  rw [triggers, List.countP_append, List.countP_singleton, ← triggers]

theorem Step.length_deliveries (step : Step s d t) :
    t.deliveries.length = s.deliveries.length + if d.triggers then 1 else 0 := by
  cases step with
  | trigger event => exact List.length_append
  | call | «continue» | stop | finish => exact List.length_set
  | _ => rfl

theorem Step.about_lt (step : Step s d t) {k : Nat} (hd : d.about? = some k) :
    k < s.deliveries.length := by
  have hlt {k' : Nat} {p : Progress α} (hp : s.deliveries[k']? = some p) (heq : some k' = some k) :
      k < s.deliveries.length := by
    obtain rfl := Option.some.inj heq
    exact (List.getElem?_eq_some_iff.mp hp).1
  cases step with
  | call next => exact hlt next hd
  | «continue» running => exact hlt running hd
  | stop running => exact hlt running hd
  | finish last => exact hlt last hd
  | _ => cases hd

namespace Delivers

/-- Nothing has been called or answered in a delivery that has not begun. -/
theorem nothing (delivers : Delivers domain h s) :
    called (triggers h) h = [] ∧ answered (triggers h) h = [] ∧ .finish (triggers h) ∉ h := by
  have hapart : ∀ d ∈ h, d.about? ≠ some (triggers h) := fun d hd habout =>
    Nat.lt_irrefl _ (delivers.begun d hd _ habout)
  obtain ⟨hcalled, hanswered⟩ := called_eq_nil hapart
  exact ⟨hcalled, hanswered, fun hmem => hapart _ hmem rfl⟩

theorem step (delivers : Delivers domain h s) (holds : Holds domain h s.registry)
    (step : Step s d t) : Delivers domain (h ++ [d]) t := by
  refine ⟨?_, fun e he k hk => ?_, fun past event future heq => ?_⟩
  · rw [step.length_deliveries, delivers.count, triggers_append]
  · rw [triggers_append]
    refine Nat.lt_add_right _ ?_
    rcases List.mem_append.mp he with he | he
    · exact delivers.begun e he k hk
    · rw [List.mem_singleton.mp he] at hk
      exact delivers.count ▸ step.about_lt hk
  · rcases History.at_end_or_before heq.symm with ⟨rfl, rfl, rfl⟩ | ⟨future', rfl, hbefore⟩
    -- The delivery begins.
    · obtain ⟨hcalled, hanswered, hfinish⟩ := delivers.nothing
      cases step
      refine ⟨.between (s.registry.listeners event), ?_, ?_, ?_⟩
      · rw [← delivers.count]
        exact List.getElem?_concat_length
      · rw [called_append, answered_append, hcalled, hanswered, ← holds.listeners]
        exact @Course.between _ _ [] _ rfl
      · simp [hfinish]
    · obtain ⟨p, hp, course, hover⟩ := delivers.courses past event future' hbefore.symm
      obtain ⟨q, hq, hcourse, hq'⟩ := course.step step hp
      refine ⟨q, hq, hcourse, ?_⟩
      rw [hq', hover, List.mem_append, List.mem_singleton, eq_comm]

theorem of_run (run : Run domain h s) : Delivers domain h s := by
  induction run with
  | refl =>
      refine ⟨rfl, List.forall_mem_nil _, fun past event future heq => ?_⟩
      exact absurd heq (by simp)
  | next before one ih => exact ih.step (.of_run before) one

end Delivers

/-- What holds of a domain and its history at any time. -/
structure Faithful (domain : String) (h : List (Deed α)) (s : State α) : Prop where
  idsOnce : (issued h).Nodup
  stands : List.Forall₂ (Registers domain) (standing h) s.registry.registrations
  refusals : ∀ name f e t, Step s (.on name f (.error e)) t → t.registry = s.registry
  -- At most one callback is taken away: the one with this id.
  removals : ∀ id answer t, Step s (.remove id answer) t →
    (answer = true ∧ ∃ before x after, s.registry.registrations = before ++ x :: after ∧
      x.id = id ∧ t.registry = { s.registry with registrations := before ++ after }) ∨
    answer = false ∧ (∀ x ∈ s.registry.registrations, x.id ≠ id) ∧ t.registry = s.registry
  deliveries : ∀ past event future, h = past ++ .trigger event :: future →
    Serves (due domain past event) (called (triggers past) h) (answered (triggers past) h)
      (.finish (triggers past) ∈ h)

theorem Holds.removals {r : Registry α} (holds : Holds domain h r) (id : HandlerId) :
    (r.holds id = true ∧ ∃ before x after, r.registrations = before ++ x :: after ∧
      x.id = id ∧ r.remove id = { r with registrations := before ++ after }) ∨
    r.holds id = false ∧ (∀ x ∈ r.registrations, x.id ≠ id) ∧ r.remove id = r := by
  cases hid : r.holds id with
  | true => exact .inl ⟨rfl, holds.distinct.exists_of_holds hid⟩
  | false =>
      refine .inr ⟨rfl, fun x hx heq => ?_, Registry.remove_of_not_holds hid⟩
      exact Bool.false_ne_true (hid ▸ Registry.holds_iff.mpr ⟨x, hx, heq⟩)

/-- **Every event reaches its callbacks.** Whatever has happened to a domain, and even while its
callbacks are running: an event is told to the callbacks that stood when it came and that mean it,
in order of registration, up to and including the first that stops it. A registration that is
refused changes nothing, no id is given out twice, and removing an id takes away what was
registered under it. -/
theorem Run.faithful (run : Run domain h s) : Faithful domain h s := by
  have holds := Holds.of_run run
  refine ⟨holds.nodup, holds.stands, fun name f e t step => ?_, fun id answer t step => ?_,
    fun past event future heq => ?_⟩
  · cases step
    rfl
  · cases step
    exact holds.removals id
  · obtain ⟨p, -, course, hover⟩ := (Delivers.of_run run).courses past event future heq
    rw [← propext hover]
    exact course.serves

/-- Two callbacks for an event. While the first is running, it removes the second and registers a
third, for the next event. -/
theorem Run.faithful_changing :
    let h : List (Deed Nat) := [.on "load*" 1 (.ok ⟨"Page", 1⟩),
      .on "Page.loaded" 2 (.ok ⟨"Page", 2⟩), .trigger "Page.loaded", .call 0 1,
      .remove ⟨"Page", 2⟩ true, .on "loaded" 3 (.ok ⟨"Page", 3⟩), .answer 0 .continue, .call 0 2,
      .answer 0 .stop, .finish 0]
    (∃ s, Run "Page" h s ∧ Faithful "Page" h s) ∧ due "Page" (h.take 2) "Page.loaded" = [1, 2] ∧
      called 0 h = [1, 2] ∧ (standing h).map Enrolment.callback = [1, 3] := by
  intro h
  have run := Steps.refl (s := (⟨.empty "Page", []⟩ : State Nat))
    |>.next (.on "load*" 1 rfl)
    |>.next (.on "Page.loaded" 2 rfl)
    |>.next (.trigger "Page.loaded")
    |>.next (.call (k := 0) rfl)
    |>.next (.remove ⟨"Page", 2⟩)
    |>.next (.on "loaded" 3 rfl)
    |>.next (.continue (k := 0) rfl)
    |>.next (.call (k := 0) rfl)
    |>.next (.stop (k := 0) rfl)
    |>.next (.finish (k := 0) rfl)
  exact ⟨⟨_, run, Run.faithful run⟩, by decide, rfl, by decide⟩

/-! ## Running callbacks -/

theorem Steps.trans {u : State α} {g : List (Deed α)} (first : Steps s h t) (second : Steps t g u) :
    Steps s (h ++ g) u := by
  induction second with
  | refl =>
      rw [List.append_nil]
      exact first
  | next _ step ih =>
      rw [← List.append_assoc]
      exact .next ih step

theorem Step.steps (step : Step s d t) : Steps s [d] t := .next .refl step

variable {σ : Type} {run : α → σ → σ × Propagation} {registry : σ → Registry α}

/-- What callbacks do to a domain is a course of deeds, which may begin further deliveries but
leaves those alone that have begun. -/
def Acts (run : α → σ → σ × Propagation) (registry : σ → Registry α) : Prop :=
  ∀ f x deliveries, ∃ deeds more,
    Steps ⟨registry x, deliveries⟩ deeds ⟨registry (run f x).1, deliveries ++ more⟩ ∧
      ∀ d ∈ deeds, ∀ k, d.about? = some k → deliveries.length ≤ k

/-- Runs all of these callbacks, whatever they answer. -/
def runAll (run : α → σ → σ × Propagation) : List α → σ → σ × List Propagation
  | [], x => (x, [])
  | f :: rest, x =>
      let (y, p) := run f x
      let (z, answers) := runAll run rest y
      (z, p :: answers)

/-- A delivery among others goes on. -/
theorem advance_append (r : Registry α) (earlier later : List (Progress α)) (p q : Progress α) :
    (⟨r, earlier ++ p :: later⟩ : State α).advance earlier.length q =
      ⟨r, earlier ++ q :: later⟩ := by
  simp [State.advance]

/-- A callback is called and has answered. What it does in between is no part of the delivery. -/
theorem steps_call (acts : Acts run registry) (f : α) (rest : List α) (x : σ)
    (earlier later : List (Progress α)) : ∃ deeds more,
      Steps ⟨registry x, earlier ++ .between (f :: rest) :: later⟩ deeds
        ⟨registry (run f x).1, earlier ++
          .between (if (run f x).2 = .stop then [] else rest) :: (later ++ more)⟩ ∧
      called earlier.length deeds = [f] ∧ answered earlier.length deeds = [(run f x).2] := by
  have hat (y : σ) (p : Progress α) (rest : List (Progress α)) :
      (⟨registry y, earlier ++ p :: rest⟩ : State α).deliveries[earlier.length]? = some p := by
    simp
  have hcall := (Step.call (hat x (.between (f :: rest)) later)).steps
  rw [advance_append] at hcall
  obtain ⟨deeds, more, hacts, habout⟩ := acts f x (earlier ++ .inside f rest :: later)
  rw [List.append_assoc, List.cons_append] at hacts
  -- What the callback does meanwhile is about deliveries that began later.
  have hapart : ∀ d ∈ deeds, d.about? ≠ some earlier.length := fun d hd heq => by
    have hle := habout d hd _ heq
    rw [List.length_append, List.length_cons] at hle
    omega
  obtain ⟨hcalled, hanswered⟩ := called_eq_nil hapart
  have hanswer : Step ⟨registry (run f x).1, earlier ++ .inside f rest :: (later ++ more)⟩
      (.answer earlier.length (run f x).2) ⟨registry (run f x).1, earlier ++
        .between (if (run f x).2 = .stop then [] else rest) :: (later ++ more)⟩ := by
    have hinside := hat (run f x).1 (.inside f rest) (later ++ more)
    cases (run f x).2 with
    | «continue» =>
        have hgoesOn := Step.continue hinside
        rwa [advance_append] at hgoesOn
    | stop =>
        have hstopped := Step.stop hinside
        rwa [advance_append] at hstopped
  refine ⟨_, more, (hcall.trans hacts).next hanswer, ?_, ?_⟩
  · rw [called_append, called, List.filterMap_append, ← called, ← called, hcalled]
    simp [called, Deed.calls?]
  · rw [answered_append, answered, List.filterMap_append, ← answered, ← answered, hanswered]
    simp [answered, Deed.answers?]

/-- Running callbacks one after the other is delivering, up to the end: those that are called are
run, and no others. -/
theorem steps_runCallbacks (acts : Acts run registry) (fs : List α) (x : σ)
    (earlier later : List (Progress α)) : ∃ deeds more,
      Steps ⟨registry x, earlier ++ .between fs :: later⟩ (deeds ++ [.finish earlier.length])
        ⟨registry (runCallbacks run fs x), earlier ++ .finished :: (later ++ more)⟩ ∧
      runAll run (called earlier.length deeds) x =
        (runCallbacks run fs x, answered earlier.length deeds) := by
  have hfinish (y : σ) (rest : List (Progress α)) :
      Step ⟨registry y, earlier ++ .between [] :: rest⟩ (.finish earlier.length)
        ⟨registry y, earlier ++ .finished :: rest⟩ := by
    have hlast := Step.finish (s := ⟨registry y, earlier ++ .between [] :: rest⟩)
      (k := earlier.length) (by simp)
    rwa [advance_append] at hlast
  -- The deeds of one callback are followed by those of the rest, unless it stops the delivery.
  induction fs generalizing x later with
  | nil =>
      refine ⟨[], [], ?_, rfl⟩
      rw [List.append_nil]
      exact (hfinish x later).steps
  | cons f rest ih =>
      obtain ⟨deeds, more, hcall, hcalled, hanswered⟩ := steps_call acts f rest x earlier later
      rw [runCallbacks]
      generalize hrun : run f x = result at hcall hanswered
      obtain ⟨y, p⟩ := result
      cases p with
      | «continue» =>
          obtain ⟨deeds', more', hrest, hall⟩ := ih y (later ++ more)
          have hsteps := hcall.trans hrest
          rw [← List.append_assoc, List.append_assoc later] at hsteps
          refine ⟨_, _, hsteps, ?_⟩
          rw [called, List.filterMap_append, ← called, ← called, hcalled, answered,
            List.filterMap_append, ← answered, ← answered, hanswered]
          simp only [List.singleton_append, runAll, hrun, hall]
      | stop =>
          refine ⟨deeds, more, hcall.next (hfinish y (later ++ more)), ?_⟩
          rw [hcalled, hanswered]
          simp only [runAll, hrun]

/-- **An event is delivered so**: its callbacks are taken from the registry, and then they are run
one after the other. -/
theorem steps_trigger (acts : Acts run registry) (event : String) (x : σ)
    (deliveries : List (Progress α)) : ∃ deeds more,
      Steps ⟨registry x, deliveries⟩ (.trigger event :: (deeds ++ [.finish deliveries.length]))
        ⟨registry (runCallbacks run ((registry x).listeners event) x),
          deliveries ++ .finished :: more⟩ ∧
      runAll run (called deliveries.length deeds) x =
        (runCallbacks run ((registry x).listeners event) x, answered deliveries.length deeds) := by
  obtain ⟨deeds, more, hrun, hall⟩ :=
    steps_runCallbacks acts ((registry x).listeners event) x deliveries []
  exact ⟨deeds, more, (Step.trigger event).steps.trans hrun, hall⟩

/-! ## The events of a rehearsal -/

def registryIn (n : TabId) (name : String) (w : World) : Registry Callback :=
  ((w.tab? n).bind fun tab => tab.registry? name).getD (.empty name)

theorem registryIn_modifyWaiters (n : TabId) (name : String) (w : World)
    (f : Waiters → Waiters) : registryIn n name (w.modifyWaiters n f) = registryIn n name w := by
  cases there : w.tab? n with
  | none =>
      have hthere : w.tabs[n]? = none := there
      simp [registryIn, World.modifyWaiters, World.modifyTab, World.tab?, hthere]
  | some tab =>
      rw [registryIn, registryIn, there, World.modifyWaiters, Delivery.tab?_modifyTab there]
      rfl

/-- The callbacks of a rehearsal register none and remove none. -/
theorem acts_runCallback (n : TabId) (e : Event) :
    Acts (Rehearsal.runCallback e) fun s => registryIn n e.domain s.1 := by
  intro f x deliveries
  refine ⟨[], [], ?_, List.forall_mem_nil _⟩
  have hsame : registryIn n e.domain (Rehearsal.runCallback e f x).1.1 =
      registryIn n e.domain x.1 := by
    rw [registryIn, World.tab?, Delivery.tabs_runCallback, ← World.tab?, ← registryIn]
  simp only [hsame, List.append_nil]
  exact .refl

/-- Dispatching an event of a tab is delivering it to the callbacks of its domain. -/
theorem steps_dispatchEvent (r : Rehearsal) (n : TabId) (e : Event)
    (deliveries : List (Progress Callback)) : ∃ deeds more w handlers,
      Steps ⟨registryIn n e.domain r.world, deliveries⟩
        (.trigger e.name :: (deeds ++ [.finish deliveries.length]))
        ⟨registryIn n e.domain (r.dispatchEvent n e).world, deliveries ++ .finished :: more⟩ ∧
      runAll (Rehearsal.runCallback e) (called deliveries.length deeds) (r.world, r.handlers) =
        ((w, handlers), answered deliveries.length deeds) ∧
      r.dispatchEvent n e =
        { r with world := w.modifyWaiters n fun x => x.record w.now e, handlers } := by
  obtain ⟨deeds, more, hsteps, hall⟩ :=
    steps_trigger (acts_runCallback n e) e.name (r.world, r.handlers) deliveries
  have hdispatch : r.dispatchEvent n e =
      let s := runCallbacks (Rehearsal.runCallback e)
        ((registryIn n e.domain r.world).listeners e.name) (r.world, r.handlers)
      { r with world := s.1.modifyWaiters n fun x => x.record s.1.now e, handlers := s.2 } := by
    rw [registryIn, Rehearsal.dispatchEvent]
    cases (r.world.tab? n).bind fun tab => tab.registry? e.domain <;> rfl
  refine ⟨deeds, more, _, _, ?_, hall, hdispatch⟩
  rw [hdispatch, registryIn_modifyWaiters]
  exact hsteps

end TabPilot.FanOut
