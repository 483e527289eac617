import Mathlib.Logic.Function.Basic
import TabPilot.Proofs.Event.FanOut

set_option autoImplicit false

/-! # Ids of callbacks, from domain to domain

Tabs have domains of the same names, and every domain numbers its callbacks by itself. So the ids
that domains of different tabs give out can be equal. `Tabs.removal_of_issued` says what it comes
to when an id that was given out somewhere is removed somewhere: where it was given out, the
callback that it was given out for goes, once; elsewhere nothing goes, unless the domain there has
given out an equal id by itself. `Tabs.foreign_id_removes` is that this happens.
-/

namespace TabPilot

abbrev Tabs := Nat → Tab

namespace Tabs

/-- A domain of a tab. -/
structure Place where
  tab : Nat
  domain : String
  deriving DecidableEq

/-- The callbacks at a place, if there is such a domain and it emits events. -/
def registryAt? (tabs : Tabs) (p : Place) : Option (Registry Callback) :=
  Tab.registry? (tabs p.tab) p.domain

/-- What happens: a tab or one of its domains registers a callback or removes an id. -/
inductive Deed
  | on (n : Nat) (name : String) (f : Callback) (answer : Except Error HandlerId)
  | onAt (p : Place) (name : String) (f : Callback) (answer : Except Error HandlerId)
  | remove (n : Nat) (id : HandlerId) (answer : Bool)
  | removeAt (p : Place) (id : HandlerId) (answer : Bool)

inductive Step (tabs : Tabs) : Deed → Tabs → Prop
  | on (n : Nat) (name : String) (f : Callback) {t : Tab} {id : HandlerId}
      (accepted : (tabs n).on name f = .ok (t, id)) :
      Step tabs (.on n name f (.ok id)) (Function.update tabs n t)
  | refuse (n : Nat) (name : String) (f : Callback) {e : Error}
      (refused : (tabs n).on name f = .error e) : Step tabs (.on n name f (.error e)) tabs
  | onAt (p : Place) (name : String) (f : Callback) {r r' : Registry Callback} {id : HandlerId}
      (there : registryAt? tabs p = some r) (accepted : r.on name f = .ok (r', id)) :
      Step tabs (.onAt p name f (.ok id))
        (Function.update tabs p.tab ((tabs p.tab).setRegistry r'))
  | refuseAt (p : Place) (name : String) (f : Callback) {r : Registry Callback} {e : Error}
      (there : registryAt? tabs p = some r) (refused : r.on name f = .error e) :
      Step tabs (.onAt p name f (.error e)) tabs
  | remove (n : Nat) (id : HandlerId) : Step tabs (.remove n id ((tabs n).remove id).2)
      (Function.update tabs n ((tabs n).remove id).1)
  | removeAt (p : Place) (id : HandlerId) {r : Registry Callback}
      (there : registryAt? tabs p = some r) : Step tabs (.removeAt p id (r.holds id))
        (Function.update tabs p.tab ((tabs p.tab).setRegistry (r.remove id)))

inductive Steps (tabs : Tabs) : List Deed → Tabs → Prop
  | refl : Steps tabs [] tabs
  | next {h : List Deed} {d : Deed} {tabs' tabs'' : Tabs} (before : Steps tabs h tabs')
      (step : Step tabs' d tabs'') : Steps tabs (h ++ [d]) tabs''

/-- What a deed is for a place, if it concerns it. A tab turns to the domain that a name begins
with, or that an id names. -/
def Deed.seenFrom? (p : Place) : Deed → Option (FanOut.Deed Callback)
  | .on n name f answer =>
      if n = p.tab ∧ Event.domainOf? name = some p.domain then some (.on name f answer) else none
  | .onAt q name f answer => if q = p then some (.on name f answer) else none
  | .remove n id answer =>
      if n = p.tab ∧ id.domain = p.domain then some (.remove id answer) else none
  | .removeAt q id answer => if q = p then some (.remove id answer) else none

/-- A history as it concerns a place. -/
def seenFrom (p : Place) (h : List Deed) : List (FanOut.Deed Callback) :=
  h.filterMap (Deed.seenFrom? p)

def Fresh (tabs : Tabs) : Prop := ∀ p r, registryAt? tabs p = some r → r = .empty p.domain

/-- What comes of a place in a step. Where there is no domain, nothing is registered or removed. -/
inductive Turn (p : Place) (d : Deed) :
    Option (Registry Callback) → Option (Registry Callback) → Prop
  | stays (r : Option (Registry Callback)) (apart : d.seenFrom? p = none) : Turn p d r r
  | absent (fails : ∀ id, d.seenFrom? p ≠ some (.remove id true) ∧
      ∀ name f, d.seenFrom? p ≠ some (.on name f (.ok id))) : Turn p d none none
  | moves {r r' : Registry Callback} {e : FanOut.Deed Callback} (seen : d.seenFrom? p = some e)
      (step : FanOut.Step ⟨r, []⟩ e ⟨r', []⟩) : Turn p d (some r) (some r')

variable {tabs tabs' : Tabs} {d : Deed} {p q : Place}

theorem registryAt?_update (tabs : Tabs) (n : Nat) (t : Tab) (p : Place) :
    registryAt? (Function.update tabs n t) p =
      if p.tab = n then t.registry? p.domain else registryAt? tabs p := by
  unfold registryAt?
  by_cases h : p.tab = n
  · subst h
    simp
  · simp [h]

/-! ## One step, seen from a place -/

/-- Every domain has a tidy registry. -/
def Tidy (tabs : Tabs) : Prop := ∀ p r, registryAt? tabs p = some r → r.Tidy p.domain

theorem Tidy.tab (tidy : Tidy tabs) (n : Nat) : (tabs n).Tidy :=
  fun name r hr => tidy ⟨n, name⟩ r hr

/-- Putting other callbacks into a domain. -/
theorem registryAt?_set {r r' : Registry Callback} (there : registryAt? tabs p = some r)
    (hdomain : r'.domain = p.domain) (q : Place) :
    registryAt? (Function.update tabs p.tab ((tabs p.tab).setRegistry r')) q =
      if p = q then some r' else registryAt? tabs q := by
  have hthere : Tab.registry? (tabs p.tab) r'.domain = some r := by
    rw [hdomain]
    exact there
  rw [registryAt?_update, Tab.registry?_setRegistry_of_some hthere, hdomain]
  obtain ⟨n, name⟩ := p
  obtain ⟨m, name'⟩ := q
  by_cases hn : m = n
  · subst hn
    by_cases hname : name' = name
    · simp [hname]
    · have hne : ¬ name = name' := Ne.symm hname
      simp [hname, hne, registryAt?]
  · have hne : ¬ n = m := Ne.symm hn
    simp [hn, hne]

/-- What changes one domain is a turn of this domain, and stays out of all others. -/
theorem turn_of_set {r r' : Registry Callback} {e : FanOut.Deed Callback}
    (there : registryAt? tabs p = some r) (hdomain : r'.domain = p.domain)
    (seen : ∀ q, d.seenFrom? q = if p = q then some e else none)
    (step : FanOut.Step ⟨r, []⟩ e ⟨r', []⟩) (q : Place) :
    Turn q d (registryAt? tabs q)
      (registryAt? (Function.update tabs p.tab ((tabs p.tab).setRegistry r')) q) := by
  rw [registryAt?_set there hdomain]
  by_cases hq : p = q
  · subst hq
    rw [if_pos rfl, there]
    exact .moves ((seen p).trans (if_pos rfl)) step
  · rw [if_neg hq]
    exact .stays _ ((seen q).trans (if_neg hq))

theorem place_eq_iff {n : Nat} {name : String} :
    (⟨n, name⟩ : Place) = q ↔ n = q.tab ∧ name = q.domain := by
  cases q
  exact Place.mk.injEq _ _ _ _ ▸ Iff.rfl

/-- What a tab refuses, the domain refuses. -/
theorem refused_of_refused {t : Tab} {name : String} {f : Callback} {e : Error}
    {r : Registry Callback} {domain : String} (hname : Event.domainOf? name = some domain)
    (hr : t.registry? domain = some r) (h : t.on name f = .error e) : r.on name f = .error e := by
  obtain ⟨⟨chars, rest⟩, hsplit, rfl⟩ := Option.map_eq_some_iff.mp hname
  obtain ⟨found, hfound, hevents⟩ := Option.bind_eq_some_iff.mp hr
  unfold Tab.on at h
  simp only [hsplit, Tab.domain, hfound, hevents] at h
  cases hon : r.on name f with
  | error e' =>
      rw [hon] at h
      exact congrArg _ (Except.error.inj h)
  | ok result =>
      rw [hon] at h
      cases h

/-- **One step** is a turn of every place. -/
theorem Step.turn (tidy : Tidy tabs) (step : Step tabs d tabs') (q : Place) :
    Turn q d (registryAt? tabs q) (registryAt? tabs' q) := by
  cases step with
  | on n name f accepted =>
      obtain ⟨r, r', hname, hr, hon, rfl⟩ := Tab.exists_of_on_eq_ok (tidy.tab n) accepted
      have htidy := (tidy ⟨n, r.domain⟩ r hr).on hon
      refine turn_of_set (p := ⟨n, r.domain⟩) hr htidy.domain (fun q => ?_) (.on name f hon) q
      simp only [Deed.seenFrom?, hname, Option.some.injEq, place_eq_iff]
  | refuse n name f refused =>
      by_cases hq : n = q.tab ∧ Event.domainOf? name = some q.domain
      -- The tab refuses because it has no such domain, or because the domain does.
      · cases hr : registryAt? tabs q with
        | none => exact .absent fun id => by simp [Deed.seenFrom?, hq]
        | some r =>
            refine .moves (if_pos hq) (.refuse ?_)
            exact refused_of_refused hq.2 hr (hq.1 ▸ refused)
      · exact .stays _ (if_neg hq)
  | onAt p name f there accepted =>
      have htidy := (tidy p _ there).on accepted
      refine turn_of_set there htidy.domain (fun q => ?_) (.on name f accepted) q
      simp only [Deed.seenFrom?]
  | refuseAt p name f there refused =>
      by_cases hq : p = q
      · subst hq
        rw [there]
        exact .moves (if_pos rfl) (.refuse refused)
      · exact .stays _ (if_neg hq)
  | remove n id =>
      have hseen (q : Place) (answer : Bool) : (Deed.remove n id answer).seenFrom? q =
          if (⟨n, id.domain⟩ : Place) = q then some (.remove id answer) else none := by
        simp only [Deed.seenFrom?, place_eq_iff]
      cases hr : registryAt? tabs ⟨n, id.domain⟩ with
      | none =>
          have hremove : (tabs n).remove id = (tabs n, false) := by
            have hr : Tab.registry? (tabs n) id.domain = none := hr
            simp only [Tab.remove, hr]
          rw [hremove, Function.update_eq_self]
          by_cases hq : (⟨n, id.domain⟩ : Place) = q
          · subst hq
            rw [hr]
            exact .absent fun id => by simp [hseen]
          · exact .stays _ ((hseen q _).trans (if_neg hq))
      | some r =>
          have hremove : (tabs n).remove id = ((tabs n).setRegistry (r.remove id), r.holds id) := by
            have hr : Tab.registry? (tabs n) id.domain = some r := hr
            simp only [Tab.remove, hr]
          have hdomain : (r.remove id).domain = id.domain := (tidy _ r hr).domain
          rw [hremove]
          exact turn_of_set hr hdomain (fun q => hseen q _) (.remove id) q
  | @removeAt p id r there =>
      have hdomain : (r.remove id).domain = p.domain := (tidy p r there).domain
      refine turn_of_set there hdomain (fun q => ?_) (.remove id) q
      simp only [Deed.seenFrom?]

/-! ## A whole history, seen from a place -/

/-- What has happened to a domain of a tab is what can happen to a domain. -/
theorem run_of_steps {h : List Deed} {tabs₀ : Tabs} (fresh : Fresh tabs₀)
    (steps : Steps tabs₀ h tabs) (p : Place) (r : Registry Callback)
    (hr : registryAt? tabs p = some r) : FanOut.Run p.domain (seenFrom p h) ⟨r, []⟩ := by
  induction steps generalizing p r with
  | refl =>
      rw [fresh p r hr]
      exact .refl
  | @next h d tabs tabs' before step ih =>
      have tidy : Tidy tabs := fun q r hr => (FanOut.Holds.of_run (ih q r hr)).tidy
      have hseen : seenFrom p (h ++ [d]) = seenFrom p h ++ (d.seenFrom? p).toList := by
        rw [seenFrom, List.filterMap_append]
        cases hd : d.seenFrom? p <;> simp [hd, seenFrom]
      have hturn := step.turn tidy p
      rw [hseen]
      generalize hr₀ : registryAt? tabs p = before at hturn
      rw [hr] at hturn
      cases hturn with
      | stays _ apart =>
          rw [apart, Option.toList_none, List.append_nil]
          exact ih p r hr₀
      | moves seen one =>
          rw [seen]
          exact (ih p _ hr₀).next one

theorem tidy_of_steps {h : List Deed} {tabs₀ : Tabs} (fresh : Fresh tabs₀)
    (steps : Steps tabs₀ h tabs) : Tidy tabs :=
  fun p r hr => (FanOut.Holds.of_run (run_of_steps fresh steps p r hr)).tidy

def GivenOut (h : List Deed) (p : Place) (id : HandlerId) (f : Callback) : Prop :=
  ∃ d ∈ h, ∃ name, d.seenFrom? p = some (.on name f (.ok id))

/-- An id was given out at a place, for a callback, and not removed there since. -/
def Stands (h : List Deed) (p : Place) (id : HandlerId) (f : Callback) : Prop :=
  ∃ past given future name, h = past ++ given :: future ∧
    given.seenFrom? p = some (.on name f (.ok id)) ∧
    ∀ d ∈ future, ∀ answer, d.seenFrom? p ≠ some (.remove id answer)

/-- One callback is taken away at a place, the one with this id. -/
def Takes (tabs tabs' : Tabs) (p : Place) (id : HandlerId) (f : Callback) : Prop :=
  ∃ r before x after, registryAt? tabs p = some r ∧ r.registrations = before ++ x :: after ∧
    x.id = id ∧ x.callback = f ∧
    registryAt? tabs' p = some { r with registrations := before ++ after }

variable {h : List Deed} {id : HandlerId} {f : Callback}

theorem any_removes_seenFrom_eq_false {future : List Deed} :
    (seenFrom p future).any (FanOut.Deed.removes id) = false ↔
      ∀ d ∈ future, ∀ answer, d.seenFrom? p ≠ some (.remove id answer) := by
  rw [List.any_eq_false]
  constructor
  · intro hnone d hd answer hseen
    exact hnone _ (List.mem_filterMap.mpr ⟨d, hd, hseen⟩) (decide_eq_true rfl)
  · intro hnone e he hremoves
    obtain ⟨d, hd, hseen⟩ := List.mem_filterMap.mp he
    cases e with
    | remove id' answer =>
        obtain rfl : id' = id := of_decide_eq_true hremoves
        exact hnone d hd answer hseen
    | _ => cases hremoves

theorem stands_iff : Stands h p id f ↔
    ∃ x ∈ FanOut.standing (seenFrom p h), x.id = id ∧ x.callback = f := by
  constructor
  · rintro ⟨past, given, future, name, rfl, hgiven, hkept⟩
    refine ⟨⟨id, name, f⟩, FanOut.mem_standing_iff.mpr ?_, rfl, rfl⟩
    refine ⟨seenFrom p past, seenFrom p future, ?_, any_removes_seenFrom_eq_false.mpr hkept⟩
    rw [seenFrom, List.filterMap_append, List.filterMap_cons_some hgiven]
    rfl
  · rintro ⟨x, hx, rfl, rfl⟩
    obtain ⟨past', future', heq, hkept⟩ := FanOut.mem_standing_iff.mp hx
    obtain ⟨past, rest, rfl, -, hrest⟩ := List.filterMap_eq_append_iff.mp heq
    obtain ⟨more, given, future, rfl, -, hgiven, rfl⟩ := List.filterMap_eq_cons_iff.mp hrest
    exact ⟨past ++ more, given, future, x.name, by simp, hgiven,
      any_removes_seenFrom_eq_false.mp hkept⟩

theorem Stands.givenOut (stands : Stands h p id f) : GivenOut h p id f := by
  obtain ⟨past, given, future, name, rfl, hgiven, -⟩ := stands
  exact ⟨given, by simp, name, hgiven⟩

/-- At one place an id is given out for one callback. -/
theorem GivenOut.unique (nodup : (FanOut.issued (seenFrom p h)).Nodup) {f' : Callback}
    (given : GivenOut h p id f) (given' : GivenOut h p id f') : f = f' := by
  obtain ⟨d, hd, name, hseen⟩ := given
  obtain ⟨d', hd', name', hseen'⟩ := given'
  have hsame := FanOut.eq_of_issues nodup (List.mem_filterMap.mpr ⟨d, hd, hseen⟩)
    (List.mem_filterMap.mpr ⟨d', hd', hseen'⟩) rfl rfl
  cases hsame
  rfl

/-- An id names the domain that it was given out by. -/
theorem GivenOut.domain {r : Registry Callback} (holds : FanOut.Holds p.domain (seenFrom p h) r)
    (given : GivenOut h p id f) : id.domain = p.domain := by
  obtain ⟨d, hd, name, hseen⟩ := given
  have hissued : id ∈ FanOut.issued (seenFrom p h) :=
    List.mem_filterMap.mpr ⟨_, List.mem_filterMap.mpr ⟨d, hd, hseen⟩, rfl⟩
  rw [holds.numbered] at hissued
  obtain ⟨i, -, rfl⟩ := List.mem_map.mp hissued
  rfl

/-! ## Removing an id -/

/-- Where an id was given out, there is a domain. -/
theorem GivenOut.exists_registry {tabs₀ : Tabs} (fresh : Fresh tabs₀) (steps : Steps tabs₀ h tabs)
    (given : GivenOut h p id f) : ∃ r, registryAt? tabs p = some r := by
  induction steps with
  | refl =>
      obtain ⟨d, hd, -⟩ := given
      cases hd
  | @next h d tabs tabs' before step ih =>
      have hturn := step.turn (tidy_of_steps fresh before) p
      obtain ⟨e, he, name, hseen⟩ := given
      rcases List.mem_append.mp he with he | he
      · obtain ⟨r, hr⟩ := ih ⟨e, he, name, hseen⟩
        rw [hr] at hturn
        generalize registryAt? tabs' p = after at hturn ⊢
        cases hturn with
        | stays => exact ⟨r, rfl⟩
        | moves => exact ⟨_, rfl⟩
      · rw [List.mem_singleton.mp he] at hseen
        generalize registryAt? tabs p = before at hturn
        generalize registryAt? tabs' p = after at hturn ⊢
        cases hturn with
        | stays _ apart =>
            rw [apart] at hseen
            cases hseen
        | absent fails => exact absurd hseen ((fails id).2 name f)
        | moves => exact ⟨_, rfl⟩

/-- A removal concerns one place. -/
theorem place_of_removal {answer : Bool} {e : FanOut.Deed Callback}
    (removal : d.seenFrom? q = some (.remove id answer)) (seen : d.seenFrom? p = some e) :
    p = q := by
  cases d with
  | on | onAt =>
      obtain ⟨-, heq⟩ := Option.ite_none_right_eq_some.mp removal
      cases heq
  | remove =>
      obtain ⟨hq, -⟩ := Option.ite_none_right_eq_some.mp removal
      obtain ⟨hp, -⟩ := Option.ite_none_right_eq_some.mp seen
      exact (place_eq_iff.mpr hp).symm.trans (place_eq_iff.mpr hq)
  | removeAt =>
      obtain ⟨hq, -⟩ := Option.ite_none_right_eq_some.mp removal
      obtain ⟨hp, -⟩ := Option.ite_none_right_eq_some.mp seen
      exact hp.symm.trans hq

/-- Removing an id at a place, whoever has given it out. -/
theorem removal_at {tabs₀ : Tabs} {answer : Bool} (fresh : Fresh tabs₀)
    (steps : Steps tabs₀ h tabs) (step : Step tabs d tabs')
    (removal : d.seenFrom? q = some (.remove id answer)) :
    (answer = false ∧ (∀ f, ¬ Stands h q id f) ∧ registryAt? tabs' q = registryAt? tabs q) ∨
      (answer = true ∧ id.domain = q.domain ∧ ∃ f, Stands h q id f ∧ Takes tabs tabs' q id f) := by
  have hturn := step.turn (tidy_of_steps fresh steps) q
  generalize hr : registryAt? tabs q = before at hturn
  generalize hr' : registryAt? tabs' q = after at hturn
  cases hturn with
  | stays _ apart =>
      rw [apart] at removal
      cases removal
  | absent fails =>
      cases answer with
      | true => exact absurd removal (fails id).1
      | false =>
          refine .inl ⟨rfl, fun f stands => ?_, rfl⟩
          obtain ⟨r, hsome⟩ := stands.givenOut.exists_registry fresh steps
          rw [hr] at hsome
          cases hsome
  | @moves r r' e seen one =>
      obtain rfl : e = .remove id answer := Option.some.inj (seen.symm.trans removal)
      have holds := FanOut.Holds.of_run (run_of_steps fresh steps q r hr)
      cases one
      -- What is registered there is what stands in the history of this place.
      rcases holds.removals id with ⟨htrue, before, x, after, hsplit, hid, hremove⟩ |
        ⟨hfalse, hnone, hremove⟩
      · have hx : x ∈ r.registrations := hsplit ▸ by simp
        refine .inr ⟨htrue, ?_, x.callback, ?_, r, before, x, after, hr, hsplit, hid, rfl, ?_⟩
        · rw [← hid]
          exact holds.tidy.own x hx
        · exact stands_iff.mpr (holds.stands_iff.mpr ⟨x, hx, hid, rfl⟩)
        · rw [hr', hremove]
      · refine .inl ⟨hfalse, fun f stands => ?_, congrArg some hremove⟩
        obtain ⟨x, hx, hid, -⟩ := holds.stands_iff.mp (stands_iff.mp stands)
        exact hnone x hx hid

/-- **Where an id is removed decides what goes.** At the place where it was given out, removing it
answers true if it was not removed there before, and takes away the callback that it was given
out for. At another place it answers false, and nothing goes, unless that place has given out
an equal id by itself: then the callback there goes. No other place is touched. -/
theorem removal_of_issued {tabs₀ : Tabs} {answer : Bool} (fresh : Fresh tabs₀)
    (steps : Steps tabs₀ h tabs) (given : GivenOut h p id f) (step : Step tabs d tabs')
    (removal : d.seenFrom? q = some (.remove id answer)) :
    (∀ q', q' ≠ q → registryAt? tabs' q' = registryAt? tabs q') ∧
      (answer = false → registryAt? tabs' q = registryAt? tabs q) ∧
      (q = p → (answer = true ↔ Stands h p id f) ∧ (answer = true → Takes tabs tabs' p id f)) ∧
      (q ≠ p → answer = true →
        q.domain = p.domain ∧ ∃ f', Stands h q id f' ∧ Takes tabs tabs' q id f') := by
  obtain ⟨r, hr⟩ := given.exists_registry fresh steps
  have holds := FanOut.Holds.of_run (run_of_steps fresh steps p r hr)
  -- `hat` says what a removal meets at `q`, whichever tab gave the id out.
  have hat := removal_at fresh steps step removal
  refine ⟨fun q' hq' => ?_, fun hfalse => ?_, fun hq => ?_, fun _ htrue => ?_⟩
  · have hturn := step.turn (tidy_of_steps fresh steps) q'
    generalize registryAt? tabs q' = before at hturn ⊢
    generalize registryAt? tabs' q' = after at hturn ⊢
    cases hturn with
    | stays => rfl
    | absent => rfl
    | moves seen => exact absurd (place_of_removal removal seen) hq'
  · rcases hat with ⟨-, -, hsame⟩ | ⟨htrue, -⟩
    · exact hsame
    · rw [hfalse] at htrue
      cases htrue
  · subst hq
    rcases hat with ⟨rfl, hnone, -⟩ | ⟨rfl, -, f', stands, takes⟩
    · exact ⟨iff_of_false Bool.false_ne_true (hnone f), fun h => absurd h Bool.false_ne_true⟩
    · obtain rfl := given.unique holds.nodup stands.givenOut
      exact ⟨iff_of_true rfl stands, fun _ => takes⟩
  · rcases hat with ⟨hfalse, -⟩ | ⟨-, hdomain, f', stands, takes⟩
    · rw [htrue] at hfalse
      cases hfalse
    · exact ⟨hdomain.symm.trans (given.domain holds), f', stands, takes⟩

def attached : Tabs := fun _ => Tab.attach "T" "" 30000 false 0

theorem fresh_attached : Fresh attached :=
  fun _ _ hr => Tab.registry_eq_empty Tab.eq_empty_of_mem_standardDomains hr

/-- Two callbacks of one tab. Another tab, which has none, is given the id of the first, and then
the tab that has given it out. -/
theorem removal_of_issued_own :
    let h : List Deed := [.on 0 "Page.loaded" (.probe "first" false) (.ok ⟨"Page", 1⟩),
      .onAt ⟨0, "Page"⟩ "loaded" (.probe "second" false) (.ok ⟨"Page", 2⟩)]
    ∃ tabs tabs' tabs'', Steps attached h tabs ∧
      Step tabs (.remove 1 ⟨"Page", 1⟩ false) tabs' ∧
      registryAt? tabs' ⟨1, "Page"⟩ = registryAt? tabs ⟨1, "Page"⟩ ∧
      Step tabs (.remove 0 ⟨"Page", 1⟩ true) tabs'' ∧
      Takes tabs tabs'' ⟨0, "Page"⟩ ⟨"Page", 1⟩ (.probe "first" false) := by
  intro h
  have steps := (Steps.refl : Steps attached [] attached)
    |>.next (.on 0 "Page.loaded" (.probe "first" false) rfl)
    |>.next (.onAt ⟨0, "Page"⟩ "loaded" (.probe "second" false) rfl rfl)
  have given : GivenOut h ⟨0, "Page"⟩ ⟨"Page", 1⟩ (.probe "first" false) :=
    ⟨_, List.mem_cons_self, "Page.loaded", rfl⟩
  have elsewhere := removal_of_issued (h := h) (q := ⟨1, "Page"⟩) fresh_attached steps given
    (.remove 1 ⟨"Page", 1⟩) rfl
  have athome := removal_of_issued (h := h) (q := ⟨0, "Page"⟩) fresh_attached steps given
    (.remove 0 ⟨"Page", 1⟩) rfl
  exact ⟨_, _, _, steps, .remove 1 ⟨"Page", 1⟩, elsewhere.2.1 rfl,
    .remove 0 ⟨"Page", 1⟩, (athome.2.2.1 rfl).2 rfl⟩

/-- **Equal ids.** The first callbacks of two tabs for one domain have the same id, so the second
tab removes its callback when it is given the id of the first one, and does not know its own
id after that. -/
theorem foreign_id_removes : ∃ tabs tabs' tabs'', Fresh attached ∧
    Steps attached [.on 0 "Page.loaded" (.probe "first" false) (.ok ⟨"Page", 1⟩),
      .on 1 "Page.loaded" (.probe "second" false) (.ok ⟨"Page", 1⟩)] tabs ∧
    Step tabs (.remove 1 ⟨"Page", 1⟩ true) tabs' ∧
    (registryAt? tabs ⟨1, "Page"⟩).map (·.registrations.length) = some 1 ∧
    (registryAt? tabs' ⟨1, "Page"⟩).map (·.registrations.length) = some 0 ∧
    Step tabs' (.remove 1 ⟨"Page", 1⟩ false) tabs'' := by
  have steps := (Steps.refl : Steps attached [] attached)
    |>.next (.on 0 "Page.loaded" (.probe "first" false) rfl)
    |>.next (.on 1 "Page.loaded" (.probe "second" false) rfl)
  exact ⟨_, _, _, fresh_attached, steps, .remove 1 ⟨"Page", 1⟩, rfl, rfl, .remove 1 ⟨"Page", 1⟩⟩

end Tabs

end TabPilot
