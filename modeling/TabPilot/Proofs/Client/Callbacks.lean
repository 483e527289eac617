import Mathlib.Data.List.Nodup
import TabPilot.Client.Tab
import TabPilot.Proofs.Event.EventNames
import TabPilot.Proofs.Outcome

set_option autoImplicit false

/-! # The callbacks of a tab

A tab holds callbacks for each of its domains that emit events. Each domain gives out numbers in
ascending order and never twice (`Registry.Tidy`), so what was registered can be taken away again
without touching what was there before: `Tab.Gains` says that a tab has got callbacks,
`Tab.Gains.undone` that taking them away leaves those that were there.
-/

namespace TabPilot

/-! ## One domain -/

def Event.domainOf? (name : String) : Option String :=
  (Event.splitName name.toList).map fun parts => String.ofList parts.1

namespace Registry

variable {α : Type}

/-- The callbacks of a domain have numbers of that domain that were given out already. -/
structure Tidy (name : String) (r : Registry α) : Prop where
  domain : r.domain = name
  own : ∀ x ∈ r.registrations, x.id.domain = name
  numbered : ∀ x ∈ r.registrations, x.id.number ≤ r.lastNumber

variable {name : String} {r r' : Registry α} {callback : α} {id : HandlerId}

theorem tidy_empty (name : String) : (empty name : Registry α).Tidy name :=
  ⟨rfl, List.forall_mem_nil _, List.forall_mem_nil _⟩

/-- A name that begins with the domain is qualified already. -/
theorem qualify_of_domainOf? {event : String} (h : Event.domainOf? event = some name) :
    qualify name event = .ok event := by
  obtain ⟨⟨domain, rest⟩, hsplit, rfl⟩ := Option.map_eq_some_iff.mp h
  have hchars : event.toList = domain ++ '.' :: rest := (Event.eq_of_splitName hsplit).1
  have hbegins : (String.ofList domain ++ ".").toList.isPrefixOf event.toList := by
    rw [List.isPrefixOf_iff_prefix, hchars]
    exact ⟨rest, by simp⟩
  rw [qualify, if_pos hbegins]

/-- Registering puts a callback behind the others, under the next number. -/
theorem exists_of_on_eq_ok {event : String} (h : r.on event callback = .ok (r', id)) :
    ∃ qualified matcher, qualify r.domain event = .ok qualified ∧
      matcherOf qualified = .ok matcher ∧ id = ⟨r.domain, r.lastNumber + 1⟩ ∧
      r' = ⟨r.domain, r.lastNumber + 1, r.registrations ++ [⟨id, matcher, callback⟩]⟩ := by
  unfold on at h
  split at h
  · cases h
  · next qualified hqualified =>
      split at h
      · cases h
      · next matcher hmatcher =>
          cases h
          exact ⟨qualified, matcher, hqualified, hmatcher, rfl, rfl⟩

theorem Tidy.on (htidy : r.Tidy name) {event : String}
    (h : r.on event callback = .ok (r', id)) : r'.Tidy name := by
  obtain ⟨qualified, matcher, -, -, rfl, rfl⟩ := exists_of_on_eq_ok h
  refine ⟨htidy.domain, fun x hx => ?_, fun x hx => ?_⟩
  · rcases List.mem_append.mp hx with hx | hx
    · exact htidy.own x hx
    · rw [List.mem_singleton.mp hx]
      exact htidy.domain
  · rcases List.mem_append.mp hx with hx | hx
    · exact Nat.le_succ_of_le (htidy.numbered x hx)
    · cases List.mem_singleton.mp hx
      exact Nat.le_refl _

theorem Tidy.remove (htidy : r.Tidy name) (id : HandlerId) : (r.remove id).Tidy name where
  domain := htidy.domain
  own x hx := htidy.own x (List.mem_of_mem_filter hx)
  numbered x hx := htidy.numbered x (List.mem_of_mem_filter hx)

/-- A callback of another domain is not there. -/
theorem Tidy.remove_of_ne (htidy : r.Tidy name) (hid : id.domain ≠ name) : r.remove id = r := by
  have hkeep : ∀ x ∈ r.registrations, decide (x.id ≠ id) = true := by
    intro x hx
    refine decide_eq_true fun heq => hid ?_
    rw [← heq]
    exact htidy.own x hx
  unfold Registry.remove
  rw [List.filter_eq_self.mpr hkeep]

/-! ### Ids -/

/-- No two callbacks are known by the same id. -/
def Distinct (r : Registry α) : Prop := (r.registrations.map Registration.id).Nodup

theorem distinct_empty (name : String) : (empty name : Registry α).Distinct := List.nodup_nil

theorem Distinct.on (hdistinct : r.Distinct) (htidy : r.Tidy name) {event : String}
    (h : r.on event callback = .ok (r', id)) : r'.Distinct := by
  obtain ⟨qualified, matcher, -, -, rfl, rfl⟩ := exists_of_on_eq_ok h
  have hnew : (⟨r.domain, r.lastNumber + 1⟩ : HandlerId) ∉
      r.registrations.map Registration.id := by
    intro hmem
    obtain ⟨x, hx, hid⟩ := List.mem_map.mp hmem
    have hle := htidy.numbered x hx
    rw [hid] at hle
    exact Nat.not_succ_le_self _ hle
  rw [Distinct, List.map_append, List.map_singleton, List.nodup_append_comm]
  exact List.nodup_cons.mpr ⟨hnew, hdistinct⟩

theorem Distinct.remove (hdistinct : r.Distinct) (id : HandlerId) : (r.remove id).Distinct :=
  List.Nodup.sublist (List.Sublist.map _ List.filter_sublist) hdistinct

theorem holds_iff : r.holds id = true ↔ ∃ x ∈ r.registrations, x.id = id := by
  simp [holds]

/-- An id that is not there takes nothing away. -/
theorem remove_of_not_holds (h : r.holds id = false) : r.remove id = r := by
  have hkeep : ∀ x ∈ r.registrations, decide (x.id ≠ id) = true := by
    intro x hx
    exact decide_eq_true fun heq => Bool.false_ne_true (h ▸ holds_iff.mpr ⟨x, hx, heq⟩)
  rw [Registry.remove, List.filter_eq_self.mpr hkeep]

/-- An id that is there takes one callback away. -/
theorem Distinct.exists_of_holds (hdistinct : r.Distinct) (h : r.holds id = true) :
    ∃ before x after, r.registrations = before ++ x :: after ∧ x.id = id ∧
      r.remove id = { r with registrations := before ++ after } := by
  obtain ⟨x, hx, hid⟩ := holds_iff.mp h
  obtain ⟨before, after, hsplit⟩ := List.append_of_mem hx
  refine ⟨before, x, after, hsplit, hid, ?_⟩
  rw [Distinct, hsplit, List.map_append, List.map_cons, hid] at hdistinct
  have hothers : ∀ y ∈ before ++ after, decide (y.id ≠ id) = true := by
    intro y hy
    refine decide_eq_true fun heq => (List.nodup_middle.mp hdistinct).notMem ?_
    rw [← List.map_append, ← heq]
    exact List.mem_map_of_mem hy
  rw [Registry.remove, hsplit, List.filter_append, List.filter_cons_of_neg (by simp [hid]),
    ← List.filter_append, List.filter_eq_self.mpr hothers]

end Registry

/-! ## All domains -/

namespace Tab

/-- The callbacks for the events of a domain, in order of registration, if it emits events. -/
def callbacks? (t : Tab) (domain : String) : Option (List (Registration Callback)) :=
  (t.registry? domain).map Registry.registrations

/-- What holds of the callbacks of every domain. -/
def Tidy (t : Tab) : Prop := ∀ name r, t.registry? name = some r → r.Tidy name

def Issued (t : Tab) (id : HandlerId) : Prop :=
  ∃ r, t.registry? id.domain = some r ∧ id.number ≤ r.lastNumber

variable {t t' t'' : Tab} {name : String} {callback : Callback} {id : HandlerId}

theorem registry?_congr (h : t'.domains = t.domains) (name : String) :
    t'.registry? name = t.registry? name := by
  unfold registry? domain?
  rw [h]

/-- Only the domain in question gets other callbacks. -/
theorem registry?_setRegistry (t : Tab) (r : Registry Callback) (name : String) :
    registry? (t.setRegistry r) name =
      if name = r.domain then (t.domain? name).map fun _ => r else t.registry? name := by
  have hnames : ((fun d : Domain => decide (d.name = name)) ∘ fun d : Domain =>
      if d.name = r.domain then { d with events := some r } else d) =
        fun d => decide (d.name = name) := by
    funext d
    by_cases h : d.name = r.domain
    · simp [h]
    · simp [h]
  unfold registry? domain? setRegistry
  rw [List.find?_map, hnames, Option.bind_map]
  cases hfind : t.domains.find? fun d => decide (d.name = name) with
  | none => simp
  | some d =>
      have hname : d.name = name := by simpa using List.find?_some hfind
      by_cases h : name = r.domain
      · simp [hname, h]
      · simp [hname, h]

theorem registry?_setRegistry_of_some {r r' : Registry Callback}
    (h : t.registry? r'.domain = some r) (name : String) :
    registry? (t.setRegistry r') name =
      if name = r'.domain then some r' else t.registry? name := by
  obtain ⟨d, hd, -⟩ := Option.bind_eq_some_iff.mp h
  rw [registry?_setRegistry]
  split
  · next heq =>
      rw [heq, hd]
      rfl
  · rfl

/-- Taking a callback away, seen from any domain. -/
theorem Tidy.registry?_remove (htidy : t.Tidy) (id : HandlerId) (name : String) :
    registry? (t.remove id).1 name = (t.registry? name).map fun r => r.remove id := by
  have hothers : name ≠ id.domain →
      t.registry? name = (t.registry? name).map fun r => r.remove id := by
    intro hne
    cases hregistry : t.registry? name with
    | none => rfl
    | some r => rw [Option.map_some, (htidy name r hregistry).remove_of_ne (Ne.symm hne)]
  unfold remove
  split
  · next r hr =>
      have hdomain : (r.remove id).domain = id.domain := (htidy id.domain r hr).domain
      rw [registry?_setRegistry, hdomain]
      by_cases h : name = id.domain
      · subst h
        obtain ⟨d, hd, -⟩ := Option.bind_eq_some_iff.mp hr
        rw [if_pos rfl, hr, hd]
        rfl
      · rw [if_neg h]
        exact hothers h
  · next hnone =>
      by_cases h : name = id.domain
      · subst h
        rw [hnone]
        rfl
      · exact hothers h

theorem Tidy.remove (htidy : t.Tidy) (id : HandlerId) : (t.remove id).1.Tidy := by
  intro name r hr
  rw [htidy.registry?_remove] at hr
  obtain ⟨r₀, hr₀, rfl⟩ := Option.map_eq_some_iff.mp hr
  exact (htidy name r₀ hr₀).remove id

/-- Taking callbacks away, one after the other. -/
theorem Tidy.callbacks?_removeAll (htidy : t.Tidy) (ids : List HandlerId) (name : String) :
    (ids.foldl (fun t id => (t.remove id).1) t).callbacks? name =
      (t.callbacks? name).map fun callbacks => callbacks.filter fun x => x.id ∉ ids := by
  induction ids generalizing t with
  | nil => simp
  | cons id rest ih =>
      rw [List.foldl_cons, ih (htidy.remove id)]
      unfold callbacks?
      rw [htidy.registry?_remove, Option.map_map, Option.map_map, Option.map_map]
      refine congrArg (fun f => (t.registry? name).map f) (funext fun r => ?_)
      simp only [Function.comp_apply, Registry.remove, List.filter_filter]
      refine List.filter_congr fun x _ => ?_
      simp only [List.mem_cons, not_or, Bool.decide_and]
      exact Bool.and_comm _ _

/-- Registering in a tab is registering in the domain that the name begins with. -/
theorem exists_of_on_eq_ok (htidy : t.Tidy) (h : t.on name callback = .ok (t', id)) :
    ∃ r r', Event.domainOf? name = some r.domain ∧ t.registry? r.domain = some r ∧
      r.on name callback = .ok (r', id) ∧ t' = t.setRegistry r' := by
  unfold on at h
  split at h
  · cases h
  · next domain rest hsplit =>
      dsimp only [Tab.domain] at h
      cases hdomain : t.domain? (String.ofList domain) with
      | none =>
          rw [hdomain] at h
          cases h
      | some d =>
          rw [hdomain] at h
          dsimp only at h
          split at h
          · cases h
          · next r hr =>
              obtain ⟨⟨r', id'⟩, hon, heq⟩ := exists_of_map_eq_ok h
              cases heq
              have hregistry : t.registry? (String.ofList domain) = some r :=
                Option.bind_eq_some_iff.mpr ⟨d, hdomain, hr⟩
              have hname : r.domain = String.ofList domain := (htidy _ r hregistry).domain
              refine ⟨r, r', ?_, hname ▸ hregistry, hon, rfl⟩
              rw [Event.domainOf?, hsplit, hname]
              rfl

/-! ## What a tab has got -/

/-- A tab has got callbacks, each behind the others of its domain, under ids that were not given
out before. -/
structure Gains (t t' : Tab) (added : List (Registration Callback)) : Prop where
  tidy : t'.Tidy
  callbacks : ∀ name, t'.callbacks? name =
    (t.callbacks? name).map fun before => before ++ added.filter fun x => x.id.domain = name
  issued : ∀ id, t.Issued id → t'.Issued id
  fresh : ∀ x ∈ added, ¬ t.Issued x.id

theorem Tidy.issued (htidy : t.Tidy) {before : List (Registration Callback)}
    (hbefore : t.callbacks? name = some before) {x : Registration Callback} (hx : x ∈ before) :
    t.Issued x.id := by
  obtain ⟨r, hr, rfl⟩ := Option.map_eq_some_iff.mp hbefore
  have htidy := htidy name r hr
  exact ⟨r, (htidy.own x hx).symm ▸ hr, htidy.numbered x hx⟩

namespace Gains

variable {added more : List (Registration Callback)}

theorem nothing (htidy : t.Tidy) : Gains t t [] where
  tidy := htidy
  callbacks name := by simp
  issued _ h := h
  fresh := List.forall_mem_nil _

theorem trans (h : Gains t t' added) (h' : Gains t' t'' more) : Gains t t'' (added ++ more) where
  tidy := h'.tidy
  callbacks name := by
    rw [h'.callbacks, h.callbacks, Option.map_map]
    refine congrArg (fun f => (t.callbacks? name).map f) (funext fun before => ?_)
    simp
  issued id hid := h'.issued id (h.issued id hid)
  fresh x hx := by
    rcases List.mem_append.mp hx with hx | hx
    · exact h.fresh x hx
    · exact fun hid => h'.fresh x hx (h.issued x.id hid)

/-- Whatever happens to the tab beside its domains. -/
theorem of_domains (h : Gains t t' added) (hdomains : t''.domains = t'.domains) :
    Gains t t'' added := by
  have hregistry := registry?_congr hdomains
  refine ⟨fun name r hr => ?_, fun name => ?_, fun id hid => ?_, h.fresh⟩
  · rw [hregistry] at hr
    exact h.tidy name r hr
  · rw [← h.callbacks, callbacks?, callbacks?, hregistry]
  · obtain ⟨r, hr, hnumber⟩ := h.issued id hid
    exact ⟨r, (hregistry id.domain).trans hr, hnumber⟩

/-- A domain has got a callback, under the next number. -/
theorem of_setRegistry (htidy : t.Tidy) {r r' : Registry Callback} {x : Registration Callback}
    (hr : t.registry? r.domain = some r) (hid : x.id = ⟨r.domain, r.lastNumber + 1⟩)
    (hr' : r' = ⟨r.domain, r.lastNumber + 1, r.registrations ++ [x]⟩)
    (htidy' : r'.Tidy r.domain) : Gains t (t.setRegistry r') [x] := by
  have hregistry (n : String) :
      registry? (t.setRegistry r') n = if n = r.domain then some r' else t.registry? n := by
    rw [← htidy'.domain]
    exact registry?_setRegistry_of_some (htidy'.domain ▸ hr) n
  refine ⟨fun n r₁ hr₁ => ?_, fun n => ?_, fun id hissued => ?_, fun y hy hissued => ?_⟩
  · rw [hregistry] at hr₁
    split at hr₁
    · next heq =>
        cases hr₁
        rwa [heq]
    · exact htidy n r₁ hr₁
  · unfold callbacks?
    rw [hregistry]
    split
    · next heq =>
        rw [heq, hr, hr']
        simp [hid]
    · next hne =>
        have hother : ¬ x.id.domain = n := fun heq => hne (heq ▸ hid ▸ rfl)
        simp [hother, Function.comp_def]
  · obtain ⟨r₁, hr₁, hnumber⟩ := hissued
    unfold Issued
    rw [hregistry]
    split
    · next heq =>
        rw [heq, hr] at hr₁
        cases hr₁
        rw [hr']
        exact ⟨_, rfl, Nat.le_succ_of_le hnumber⟩
    · exact ⟨r₁, hr₁, hnumber⟩
  -- The next number was not given out.
  · rw [List.mem_singleton.mp hy, hid] at hissued
    obtain ⟨r₁, hr₁, hnumber⟩ := hissued
    rw [hr] at hr₁
    cases hr₁
    exact Nat.not_succ_le_self _ hnumber

/-- **Registering one callback.** -/
theorem on (htidy : t.Tidy) (h : t.on name callback = .ok (t', id)) :
    ∃ x, x.id = id ∧ x.callback = callback ∧ Registry.matcherOf name = .ok x.matcher ∧
      Event.domainOf? name = some x.id.domain ∧ Gains t t' [x] := by
  obtain ⟨r, r', hdomain, hr, hon, rfl⟩ := exists_of_on_eq_ok htidy h
  have htidy' := (htidy r.domain r hr).on hon
  obtain ⟨qualified, matcher, hqualified, hmatcher, rfl, hr'⟩ := Registry.exists_of_on_eq_ok hon
  rw [Registry.qualify_of_domainOf? hdomain] at hqualified
  cases hqualified
  exact ⟨⟨⟨r.domain, r.lastNumber + 1⟩, matcher, callback⟩, rfl, rfl, hmatcher, hdomain,
    of_setRegistry htidy hr rfl hr' htidy'⟩

/-- **Taking the callbacks away again** leaves those that were there. -/
theorem undone (h : Gains t t' added) (htidy : t.Tidy) (name : String) :
    ((added.map Registration.id).foldl (fun t id => (t.remove id).1) t').callbacks? name =
      t.callbacks? name := by
  rw [h.tidy.callbacks?_removeAll, h.callbacks, Option.map_map]
  cases hbefore : t.callbacks? name with
  | none => rfl
  | some before =>
      have hkept : before.filter (fun x => x.id ∉ added.map Registration.id) = before := by
        refine List.filter_eq_self.mpr fun x hx => decide_eq_true fun hmem => ?_
        obtain ⟨y, hy, heq⟩ := List.mem_map.mp hmem
        refine h.fresh y hy ?_
        rw [heq]
        exact htidy.issued hbefore hx
      have hgone : (added.filter fun x => x.id.domain = name).filter
          (fun x => x.id ∉ added.map Registration.id) = [] := by
        refine List.filter_eq_nil_iff.mpr fun x hx => ?_
        have hmem : x.id ∈ added.map Registration.id :=
          List.mem_map_of_mem (List.mem_of_mem_filter hx)
        simpa using hmem
      rw [Option.map_some, Function.comp_apply, List.filter_append, hkept, hgone, List.append_nil]

end Gains

/-! ## How tabs come about -/

/-- A tab that was attached, whatever callbacks were registered and removed since, and whatever
else has happened to it. At first its domains have no callbacks. -/
inductive Attached : Tab → Prop
  | fresh {t : Tab} (empty : ∀ d ∈ t.domains, ∀ r, d.events = some r → r = .empty d.name) :
      Attached t
  | on {t t' : Tab} {name : String} {callback : Callback} {id : HandlerId} (h : Attached t)
      (registered : t.on name callback = .ok (t', id)) : Attached t'
  | remove {t : Tab} (h : Attached t) (id : HandlerId) : Attached (t.remove id).1
  | others {t t' : Tab} (h : Attached t) (same : t'.domains = t.domains) : Attached t'

theorem registry_eq_empty {r : Registry Callback}
    (empty : ∀ d ∈ t.domains, ∀ r, d.events = some r → r = .empty d.name)
    (hr : t.registry? name = some r) : r = .empty name := by
  obtain ⟨d, hd, hevents⟩ := Option.bind_eq_some_iff.mp hr
  have hname : d.name = name := by simpa using List.find?_some hd
  rw [empty d (List.mem_of_find?_eq_some hd) r hevents, hname]

theorem eq_empty_of_mem_standardDomains :
    ∀ d ∈ standardDomains, ∀ r, d.events = some r → r = .empty d.name := by
  intro d hd r hr
  rcases List.mem_append.mp hd with hd | hd
  · obtain ⟨name, -, rfl⟩ := List.mem_map.mp hd
    cases hr
  · obtain ⟨name, -, rfl⟩ := List.mem_map.mp hd
    cases hr
    rfl

theorem Attached.tidy (h : Attached t) : t.Tidy := by
  induction h with
  | fresh empty =>
      intro name r hr
      rw [registry_eq_empty empty hr]
      exact Registry.tidy_empty name
  | on h registered ih =>
      obtain ⟨x, -, -, -, -, hgains⟩ := Gains.on ih registered
      exact hgains.tidy
  | remove h id ih => exact ih.remove id
  | others h same ih => exact ((Gains.nothing ih).of_domains same).tidy

/-- Attaching to a tab, with and without the console logger. -/
theorem attached_attach (id url : String) (replyTimeout : Duration) (logsConsole : Bool)
    (now : Instant) : Attached (attach id url replyTimeout logsConsole now) := by
  have hfresh : Attached ⟨id, url, .start replyTimeout, standardDomains, .start now⟩ :=
    .fresh eq_empty_of_mem_standardDomains
  unfold attach
  dsimp only
  split
  · split
    · next hon => exact hfresh.on hon
    · exact hfresh
  · exact hfresh

end Tab

end TabPilot
