import TabPilot.Proofs.Connection.Traffic

set_option autoImplicit false

/-! # Replies reach their calls

Whatever order requests, messages, timeouts and the end of a connection come in, a reply reaches
the call whose id it carries and no other, and the table of pending requests holds exactly the
requests that nothing has resolved yet. The history of a run says what has resolved a request
(`Unresolved`) and which message answered it (`Answered`); the main statement is
`replies_reach_their_calls`.
-/

namespace TabPilot.Traffic

/-! ## Reading a history -/

def Label.issued? : Label → Option Nat
  | .begin id _ => some id
  | _ => none

def issuedIds (h : History) : List Nat := h.filterMap Label.issued?

/-- The outcome that a step gives to the caller of the request `id`. -/
def Label.outcomeFor? (id : Nat) : Label → Option (Except Error (Option Reply))
  | .finish other outcome => if other = id then some outcome else none
  | _ => none

/-- The outcomes that the caller of the request `id` gets. -/
def outcomesOf (h : History) (id : Nat) : List (Except Error (Option Reply)) :=
  h.filterMap (Label.outcomeFor? id)

def repliedId? (m : Value) : Option Nat :=
  match Inbound.ofMessage m with
  | .reply id _ => some id
  | _ => none

/-- Whether a step resolves the request `id`, if it was pending: a reply to it is handled, its
caller gets an outcome, or the connection fails everything that is pending. -/
def Label.Resolves (id : Nat) : Label → Prop
  | .handle m => repliedId? m = some id
  | .finish other _ => other = id
  | .failPending => True
  | _ => False

/-- The request `id` was made pending and nothing has resolved it since. -/
def Unresolved (h : History) (id : Nat) : Prop :=
  ∃ past future, h = past ++ .enlist id :: future ∧ ∀ e ∈ future, ¬ e.Resolves id

/-- While the request `id` was unresolved, an object was handled that has this id, no member
`error`, and `result` as its member of that name. -/
def Answered (h : History) (id : Nat) (result : Value) : Prop :=
  ∃ past members future, h = past ++ .handle (.object members) :: future ∧ Unresolved past id ∧
    members.get? "id" = some (.int id) ∧ members.get? "error" = none ∧
    members.get? "result" = some result

def pendingIds (s : Traffic) : List Nat := s.connection.pending.map Prod.fst

@[simp] theorem issuedIds_snoc (h : History) (e : Label) :
    issuedIds (h ++ [e]) = issuedIds h ++ e.issued?.toList := by
  cases he : e.issued? <;> simp [issuedIds, List.filterMap_append, he]

@[simp] theorem outcomesOf_snoc (h : History) (e : Label) (id : Nat) :
    outcomesOf (h ++ [e]) id = outcomesOf h id ++ (e.outcomeFor? id).toList := by
  cases he : e.outcomeFor? id <;> simp [outcomesOf, List.filterMap_append, he]

/-- What one more step does to the unresolved requests. -/
theorem unresolved_snoc (h : History) (e : Label) (id : Nat) :
    Unresolved (h ++ [e]) id ↔ e = .enlist id ∨ Unresolved h id ∧ ¬ e.Resolves id := by
  -- What is pending at the end was made pending by the last entry, or before it and the last entry
  -- does not resolve it.
  constructor
  · rintro ⟨past, future, hh, hnone⟩
    rcases History.at_end_or_before hh.symm with ⟨-, -, rfl⟩ | ⟨future', rfl, rfl⟩
    · exact .inl rfl
    · exact .inr ⟨⟨past, future', rfl, fun e he => hnone e (by simp [he])⟩, hnone e (by simp)⟩
  · rintro (rfl | ⟨⟨past, future, rfl, hnone⟩, hlast⟩)
    · exact ⟨h, [], rfl, by simp⟩
    · refine ⟨past, future ++ [e], by simp, fun e' he' => ?_⟩
      rcases List.mem_append.mp he' with hold | hnew
      · exact hnone e' hold
      · rwa [List.mem_singleton.mp hnew]

theorem Answered.snoc {h : History} {id : Nat} {result : Value} (answered : Answered h id result)
    (e : Label) : Answered (h ++ [e]) id result := by
  obtain ⟨past, members, future, rfl, more⟩ := answered
  exact ⟨past, members, future ++ [e], by simp, more⟩

/-! ## Messages -/

/-- A reply is an object with an unsigned integer as its id, and it is read whole. -/
theorem object_of_reply {m : Value} {id : Nat} {members : Record Value}
    (h : Inbound.ofMessage m = .reply id members) :
    m = .object members ∧ members.get? "id" = some (.int id) := by
  cases m with
  | object members' =>
      simp only [Inbound.ofMessage] at h
      -- The id decides first: only without one is a message read as an event or a failure.
      cases hid : members'.get? "id" with
      | some v =>
          simp only [hid] at h
          cases hv : v.unsigned? with
          | some n =>
              obtain ⟨rfl, rfl⟩ : n = id ∧ members' = members := by simpa [hv] using h
              exact ⟨rfl, by rw [hid, Value.unsigned?_eq_some_iff.mp hv]⟩
          | none => simp [hv] at h
      | none =>
          simp only [hid] at h
          split at h <;> try contradiction
          · split at h <;> cases h
          · split at h <;> cases h
  | _ => cases h

/-- A reply that counts as a success has no error and the result given. -/
theorem resultOf_eq_ok {method : String} {members : Record Value} {result : Value}
    (h : Inbound.resultOf method members = .ok result) :
    members.get? "error" = none ∧ members.get? "result" = some result := by
  unfold Inbound.resultOf at h
  split at h
  · cases h
  · next v herror hresult =>
      cases h
      exact ⟨herror, hresult⟩
  · cases h

/-- Handling a message resolves the pending request whose id it carries, and does nothing else
to the requests. -/
theorem handle_cases (c : Connection) (m : Value) :
    (∃ (id : Nat) (members : Record Value) (method : String),
      m = .object members ∧ members.get? "id" = some (.int id) ∧ repliedId? m = some id ∧
      id ∈ c.pending.map Prod.fst ∧
      (c.handle m).1 = c.resolve id (Inbound.resultOf method members)) ∨
    ((∀ id, repliedId? m = some id → id ∉ c.pending.map Prod.fst) ∧
      ∃ events, (c.handle m).1 = { c with events }) := by
  cases hm : Inbound.ofMessage m with
  | reply id members =>
      obtain ⟨rfl, hid⟩ := object_of_reply hm
      have hreplied : repliedId? (.object members) = some id := by simp only [repliedId?, hm]
      -- A reply that nobody waits for is dropped.
      cases hlookup : c.pending.lookup id with
      | some method =>
          obtain ⟨l₁, l₂, hsplit, -⟩ := List.lookup_eq_some_iff.mp hlookup
          refine .inl ⟨id, members, method, rfl, hid, hreplied, by simp [hsplit], ?_⟩
          simp only [Connection.handle, hm, hlookup]
      | none =>
          refine .inr ⟨?_, c.events, by simp only [Connection.handle, hm, hlookup]⟩
          intro id' hid' hmem
          obtain rfl : id = id' := Option.some.inj (hreplied.symm.trans hid')
          obtain ⟨entry, hentry, hkey⟩ := List.mem_map.mp hmem
          simpa [hkey] using List.lookup_eq_none_iff.mp hlookup entry hentry
  | event e =>
      exact .inr ⟨by simp [repliedId?, hm], _, by simp only [Connection.handle, hm]; rfl⟩
  | _ => exact .inr ⟨by simp [repliedId?, hm], c.events, by simp only [Connection.handle, hm]⟩

/-! ## What a step does to the requests -/

/-- Two connections agree on everything that concerns requests. -/
structure SameRequests (c c' : Connection) : Prop where
  lastId : c'.lastId = c.lastId
  pending : c'.pending = c.pending
  outcomes : c'.outcomes = c.outcomes
  closed : c'.closed = c.closed
  receiving : c'.receiving = c.receiving

theorem SameRequests.refl (c : Connection) : SameRequests c c := ⟨rfl, rfl, rfl, rfl, rfl⟩

theorem takeId?_eq_ok {c c' : Connection} {id : Nat} (h : c.takeId? = .ok (c', id)) :
    id = c.lastId + 1 ∧ c' = { c with lastId := id } := by
  unfold Connection.takeId? at h
  split at h
  · cases h
  · cases h
    exact ⟨rfl, rfl⟩

theorem sameRequests_of_write {c c' : Connection} {m : Value} (h : c.write m = .ok c') :
    SameRequests c c' := by
  unfold Connection.write at h
  split at h
  · cases h
    exact ⟨rfl, rfl, rfl, rfl, rfl⟩
  · cases h

theorem confirm_eq_ok {c c' : Connection} {id : Nat} (h : c.confirm id = (c', .ok ())) :
    c.closed = false ∧ c' = c := by
  unfold Connection.confirm at h
  split at h
  · cases h
  · next hclosed =>
      cases h
      exact ⟨by simpa using hclosed, rfl⟩

theorem confirm_eq_error {c c' : Connection} {id : Nat} {e : Error}
    (h : c.confirm id = (c', .error e)) : c' = c.release id := by
  unfold Connection.confirm at h
  split at h <;> cases h
  rfl

theorem sameRequests_of_nextEvent? {c c' : Connection} {e : Event}
    (h : c.nextEvent? = some (c', e)) : SameRequests c c' := by
  unfold Connection.nextEvent? at h
  split at h
  · split at h <;> cases h
    exact ⟨rfl, rfl, rfl, rfl, rfl⟩
  · cases h

theorem sameRequests_of_settle? {c c' : Connection} (h : c.settle? = some c') :
    SameRequests c c' := by
  unfold Connection.settle? at h
  split at h <;> cases h
  exact ⟨rfl, rfl, rfl, rfl, rfl⟩

theorem sameRequests_askToStop (c : Connection) : SameRequests c c.askToStop.1 := by
  unfold Connection.askToStop
  split <;> exact ⟨rfl, rfl, rfl, rfl, rfl⟩

/-- Whether a step hands out no id, makes nothing pending and gives nobody an outcome. -/
structure Label.Silent (e : Label) : Prop where
  issued : e.issued? = none
  outcome : ∀ id, e.outcomeFor? id = none
  enlists : ∀ id, e ≠ .enlist id

/-- Whether a request at this stage may be in the table. -/
def Stage.CanPend : Stage → Prop
  | .enlisted | .sending | .waiting _ => True
  | .numbered | .ended => False

/-- What a step does to the requests: the kinds of steps that the invariants tell apart. -/
inductive Effect (s : Traffic) : Label → Traffic → Prop
  /-- Nothing. -/
  | none {e : Label} {c : Connection} (silent : e.Silent)
      (idle : ∀ id ∈ s.pendingIds, ¬ e.Resolves id) (same : SameRequests s.connection c) :
      Effect s e (s.withConnection c)
  | begin (r : Request) {id : Nat} (next : id = s.connection.lastId + 1) :
      Effect s (.begin id r)
        (s.moveTo { s.connection with lastId := id } id r
          (if r.expectsReply then .numbered else .sending))
  | enlist {id : Nat} {r : Request} (there : s.calls id = some ⟨r, .numbered⟩) :
      Effect s (.enlist id) (s.moveTo (s.connection.enlist id r.method) id r .enlisted)
  /-- A request goes from one stage to the next. -/
  | advance {e : Label} {c : Connection} {id : Nat} {r : Request} {stage stage' : Stage}
      (silent : e.Silent) (idle : ∀ id ∈ s.pendingIds, ¬ e.Resolves id)
      (there : s.calls id = some ⟨r, stage⟩) (canPend : stage.CanPend) (canPend' : stage'.CanPend)
      (inTime : stage = .enlisted → s.connection.closed = false)
      (same : SameRequests s.connection c) : Effect s e (s.moveTo c id r stage')
  /-- A caller gets an outcome, and its request leaves no trace. -/
  | finish {c : Connection} {id : Nat} {r : Request} {stage : Stage}
      {outcome : Except Error (Option Reply)} (there : s.calls id = some ⟨r, stage⟩)
      (notEnded : stage ≠ .ended) (same : SameRequests (s.connection.release id) c) :
      Effect s (.finish id outcome) (s.moveTo c id r .ended)
  /-- A reply reaches its request. -/
  | reply {c : Connection} {id : Nat} {members : Record Value} {method : String}
      (hasId : members.get? "id" = some (.int id))
      (replied : repliedId? (.object members) = some id) (pending : id ∈ s.pendingIds)
      (same : SameRequests (s.connection.resolve id (Inbound.resultOf method members)) c) :
      Effect s (.handle (.object members)) (s.withConnection c)
  | markClosed (receiving : s.connection.receiving = true) :
      Effect s .markClosed (s.withConnection s.connection.markClosed)
  | failPending (closed : s.connection.closed = true) :
      Effect s .failPending (s.withConnection s.connection.failPending)

/-- The request `id` expects a reply, was made pending, and its caller has no outcome yet. -/
def Awaits (s : Traffic) (id : Nat) : Prop :=
  ∃ r stage, s.calls id = some ⟨r, stage⟩ ∧ r.expectsReply = true ∧ stage.CanPend

/-- What holds of connection and calls at any time. -/
structure Sound (s : Traffic) : Prop where
  fresh : ∀ id, s.connection.lastId < id → s.calls id = none
  numbered_expects : ∀ id r, s.calls id = some ⟨r, .numbered⟩ → r.expectsReply = true
  pending_nodup : s.pendingIds.Nodup
  pending_awaits : ∀ id ∈ s.pendingIds, s.Awaits id
  outcome_awaits : ∀ o ∈ s.connection.outcomes, s.Awaits o.1
  /-- Whoever is pending after the end of receiving has not looked again yet. -/
  afterEnd : s.connection.receiving = false → s.connection.closed = true ∧
    ∀ id ∈ s.pendingIds, ∃ r, s.calls id = some ⟨r, .enlisted⟩

/-- A connection keeps its requests when it releases one that expects no reply. -/
theorem Sound.sameRequests_release {s : Traffic} (sound : Sound s) {id : Nat} {r : Request}
    {stage : Stage} (there : s.calls id = some ⟨r, stage⟩) (silent : r.expectsReply = false) :
    SameRequests (s.connection.release id) s.connection := by
  -- Nobody awaits an id that expects no reply, so there is nothing under it to release.
  have hawaits : ¬ s.Awaits id := by
    rintro ⟨r', stage', hcall, hexpects, -⟩
    rw [there] at hcall
    cases hcall
    rw [silent] at hexpects
    cases hexpects
  refine ⟨rfl, ?_, ?_, rfl, rfl⟩
  · refine (List.filter_eq_self.mpr fun p hp => ?_).symm
    have hne : p.1 ≠ id := by
      rintro rfl
      exact hawaits (sound.pending_awaits p.1 (List.mem_map_of_mem hp))
    simpa using hne
  · refine (List.filter_eq_self.mpr fun o ho => ?_).symm
    have hne : o.1 ≠ id := by
      rintro rfl
      exact hawaits (sound.outcome_awaits o ho)
    simpa using hne

theorem SameRequests.trans {c₁ c₂ c₃ : Connection} (h : SameRequests c₁ c₂)
    (h' : SameRequests c₂ c₃) : SameRequests c₁ c₃ :=
  ⟨h'.lastId.trans h.lastId, h'.pending.trans h.pending, h'.outcomes.trans h.outcomes,
    h'.closed.trans h.closed, h'.receiving.trans h.receiving⟩

/-- **Every step has one of the effects.** -/
theorem Step.effect {s s' : Traffic} {e : Label} (sound : Sound s) (step : Step s e s') :
    Effect s e s' := by
  cases step with
  | refuse refused =>
      exact .none (c := s.connection) ⟨rfl, fun _ => rfl, fun _ => nofun⟩ (fun _ _ => id)
        (.refl _)
  | begin r taken =>
      obtain ⟨hid, rfl⟩ := takeId?_eq_ok taken
      exact .begin r hid
  | enlist there => exact .enlist there
  | confirm there inTime =>
      obtain ⟨hopen, rfl⟩ := confirm_eq_ok inTime
      exact .advance ⟨rfl, fun _ => rfl, fun _ => nofun⟩ (fun _ _ => id) there trivial trivial
        (fun _ => hopen) (.refl _)
  | tooLate there late =>
      obtain rfl := confirm_eq_error late
      exact .finish there nofun (.refl _)
  | write now there expects written =>
      exact .advance ⟨rfl, fun _ => rfl, fun _ => nofun⟩ (fun _ _ => id) there trivial trivial
        nofun (sameRequests_of_write written)
  | post there expects written =>
      exact .finish there nofun
        ((sound.sameRequests_release there expects).trans (sameRequests_of_write written))
  | failWrite e there => exact .finish there nofun (.refl _)
  | collect now there found => exact .finish there nofun (.refl _)
  | handle receiving isOpen goesOn next =>
      -- The message has left the inbox before it is handled, which changes no request.
      rename_i m rest
      rcases handle_cases { s.connection with inbox := rest } m with
        ⟨id, members, method, rfl, hid, hreplied, hpending, hconn⟩ | ⟨hother, events, hconn⟩
      · rw [hconn]
        exact .reply hid hreplied hpending ⟨rfl, rfl, rfl, rfl, rfl⟩
      · rw [hconn]
        refine .none ⟨rfl, fun _ => rfl, fun _ => nofun⟩ ?_ ⟨rfl, rfl, rfl, rfl, rfl⟩
        exact fun id hpending hreplied => hother id hreplied hpending
  | markClosed receiving isOpen ended => exact .markClosed receiving
  | failPending receiving closed => exact .failPending closed
  | ask =>
      exact .none ⟨rfl, fun _ => rfl, fun _ => nofun⟩ (fun _ _ => id) (sameRequests_askToStop _)
  | dispatch next =>
      exact .none ⟨rfl, fun _ => rfl, fun _ => nofun⟩ (fun _ _ => id)
        (sameRequests_of_nextEvent? next)
  | settle settled =>
      exact .none ⟨rfl, fun _ => rfl, fun _ => nofun⟩ (fun _ _ => id)
        (sameRequests_of_settle? settled)
  | arrive | endInbox | breakPipe | read | shut =>
      exact .none ⟨rfl, fun _ => rfl, fun _ => nofun⟩ (fun _ _ => id) ⟨rfl, rfl, rfl, rfl, rfl⟩

/-! ## Connection and calls fit together -/

theorem pendingIds_eq {s s' : Traffic} (h : s'.connection.pending = s.connection.pending) :
    s'.pendingIds = s.pendingIds := by
  unfold pendingIds
  rw [h]

theorem mem_pendingIds_release {s s' : Traffic} {id other : Nat}
    (h : s'.connection.pending = (s.connection.release id).pending) :
    other ∈ s'.pendingIds ↔ other ∈ s.pendingIds ∧ other ≠ id := by
  simp only [pendingIds, h, Connection.release, List.mem_map, List.mem_filter]
  constructor
  · rintro ⟨p, ⟨hp, hne⟩, rfl⟩
    exact ⟨⟨p, hp, rfl⟩, by simpa using hne⟩
  · rintro ⟨⟨p, hp, rfl⟩, hne⟩
    exact ⟨p, ⟨hp, by simpa using hne⟩, rfl⟩

theorem pendingIds_release_sublist {s s' : Traffic} {id : Nat}
    (h : s'.connection.pending = (s.connection.release id).pending) :
    s'.pendingIds.Sublist s.pendingIds := by
  unfold pendingIds
  rw [h]
  exact List.filter_sublist.map Prod.fst

/-- A request goes on awaiting its reply when another one moves. -/
theorem Awaits.moveTo_of_ne {s : Traffic} {id other : Nat} (awaits : s.Awaits other)
    (c : Connection) (r : Request) (stage : Stage) (hne : other ≠ id) :
    (s.moveTo c id r stage).Awaits other := by
  obtain ⟨r', stage', hcall, hexpects, hpend⟩ := awaits
  exact ⟨r', stage', by rw [moveTo_calls_of_ne s c r stage hne, hcall], hexpects, hpend⟩

/-- A request goes on awaiting its reply when it moves to a later stage. -/
theorem Awaits.moveTo {s : Traffic} {id other : Nat} {r : Request} {stage stage' : Stage}
    (awaits : s.Awaits other) (there : s.calls id = some ⟨r, stage⟩) (c : Connection)
    (canPend : stage'.CanPend) : (s.moveTo c id r stage').Awaits other := by
  by_cases hid : other = id
  · subst hid
    obtain ⟨r', stage'', hcall, hexpects, -⟩ := awaits
    rw [there] at hcall
    cases hcall
    exact ⟨r, stage', by simp, hexpects, canPend⟩
  · exact awaits.moveTo_of_ne c r stage' hid

/-- A request whose stage rules the table out does not await a reply. -/
theorem not_awaits {s : Traffic} {id : Nat} {r : Request} {stage : Stage}
    (there : s.calls id = some ⟨r, stage⟩) (h : ¬ stage.CanPend) : ¬ s.Awaits id := by
  rintro ⟨r', stage', hcall, -, hpend⟩
  rw [there] at hcall
  cases hcall
  exact h hpend

theorem Sound.le_lastId {s : Traffic} (sound : Sound s) {id : Nat} {call : Call}
    (there : s.calls id = some call) : id ≤ s.connection.lastId := by
  by_contra hlt
  rw [sound.fresh id (by omega)] at there
  cases there

/-- No id is taken by moving a call that is there. -/
theorem Sound.fresh_moveTo {s : Traffic} (sound : Sound s) {id : Nat} {call : Call}
    (there : s.calls id = some call) (c : Connection) (r : Request) (stage : Stage)
    {other : Nat} (hlt : s.connection.lastId < other) :
    (s.moveTo c id r stage).calls other = none := by
  have hle := sound.le_lastId there
  rw [moveTo_calls_of_ne _ _ _ _ (by omega)]
  exact sound.fresh other hlt

/-- Calls with nothing but an id expect a reply if no call is moved back there. -/
theorem Sound.numbered_moveTo {s : Traffic} (sound : Sound s) (c : Connection) (id : Nat)
    (r : Request) (stage : Stage) (moved : stage ≠ .numbered) {other : Nat} {r' : Request}
    (hcall : (s.moveTo c id r stage).calls other = some ⟨r', .numbered⟩) :
    r'.expectsReply = true := by
  by_cases hid : other = id
  · subst hid
    obtain ⟨-, hstage⟩ : r = r' ∧ stage = .numbered := by simpa using hcall
    exact absurd hstage moved
  · rw [moveTo_calls_of_ne _ _ _ _ hid] at hcall
    exact sound.numbered_expects other r' hcall

theorem sound_start (replyTimeout : Duration) : Sound (start replyTimeout) where
  fresh _ _ := rfl
  numbered_expects _ _ h := by cases h
  pending_nodup := List.nodup_nil
  pending_awaits _ h := by cases h
  outcome_awaits _ h := by cases h
  afterEnd h := by cases h

theorem Sound.withSameRequests {s : Traffic} (sound : Sound s) {c : Connection}
    (same : SameRequests s.connection c) : Sound (s.withConnection c) := by
  have hpending : (s.withConnection c).pendingIds = s.pendingIds := pendingIds_eq same.pending
  refine ⟨?_, sound.numbered_expects, ?_, ?_, ?_, ?_⟩
  · intro id hlt
    exact sound.fresh id (by rw [← same.lastId]; exact hlt)
  · rw [hpending]
    exact sound.pending_nodup
  · rw [hpending]
    exact sound.pending_awaits
  · intro o ho
    exact sound.outcome_awaits o (by rw [← same.outcomes]; exact ho)
  · intro hover
    rw [hpending]
    obtain ⟨hclosed, henlisted⟩ := sound.afterEnd (by rw [← same.receiving]; exact hover)
    exact ⟨same.closed.trans hclosed, henlisted⟩

theorem Sound.begin {s : Traffic} (sound : Sound s) (r : Request) {id : Nat}
    (next : id = s.connection.lastId + 1) :
    Sound (s.moveTo { s.connection with lastId := id } id r
      (if r.expectsReply then .numbered else .sending)) := by
  have hfresh : s.calls id = none := sound.fresh id (by omega)
  -- An id that is handed out is new, so whatever awaits a reply has another one.
  have hother : ∀ other, s.Awaits other → other ≠ id := by
    rintro other ⟨r', stage, hcall, -⟩ rfl
    rw [hfresh] at hcall
    cases hcall
  refine ⟨?_, ?_, sound.pending_nodup, ?_, ?_, ?_⟩
  · intro other hlt
    have hlt' : id < other := hlt
    rw [moveTo_calls_of_ne _ _ _ _ (by omega)]
    exact sound.fresh other (by omega)
  · intro other r' hcall
    by_cases hid : other = id
    · subst hid
      by_cases hexpects : r.expectsReply = true
      · obtain rfl : r = r' := by simpa [hexpects] using hcall
        exact hexpects
      · simp [hexpects] at hcall
    · rw [moveTo_calls_of_ne _ _ _ _ hid] at hcall
      exact sound.numbered_expects other r' hcall
  · intro other hpending
    have hawaits := sound.pending_awaits other hpending
    exact hawaits.moveTo_of_ne _ r _ (hother other hawaits)
  · intro o ho
    have hawaits := sound.outcome_awaits o ho
    exact hawaits.moveTo_of_ne _ r _ (hother o.1 hawaits)
  · intro hover
    obtain ⟨hclosed, henlisted⟩ := sound.afterEnd hover
    refine ⟨hclosed, fun other hpending => ?_⟩
    rw [moveTo_calls_of_ne _ _ _ _ (hother other (sound.pending_awaits other hpending))]
    exact henlisted other hpending

theorem Sound.enlist {s : Traffic} (sound : Sound s) {id : Nat} {r : Request}
    (there : s.calls id = some ⟨r, .numbered⟩) :
    Sound (s.moveTo (s.connection.enlist id r.method) id r .enlisted) := by
  have hother : ∀ other, s.Awaits other → other ≠ id := by
    rintro other hawaits rfl
    exact not_awaits there (fun h => h) hawaits
  have hpending : (s.moveTo (s.connection.enlist id r.method) id r .enlisted).pendingIds =
      s.pendingIds ++ [id] := by
    simp [pendingIds, Connection.enlist]
  -- That it awaits a reply is what the stage before stands for: only such requests are enlisted.
  have hself : (s.moveTo (s.connection.enlist id r.method) id r .enlisted).Awaits id :=
    ⟨r, .enlisted, by simp, sound.numbered_expects id r there, trivial⟩
  refine ⟨fun other hlt => sound.fresh_moveTo there _ _ _ hlt,
    fun other r' => sound.numbered_moveTo _ _ _ .enlisted nofun, ?_, ?_, ?_, ?_⟩
  · rw [hpending, List.nodup_append]
    refine ⟨sound.pending_nodup, by simp, fun other hmem other' hmem' => ?_⟩
    rw [List.mem_singleton.mp hmem']
    exact hother other (sound.pending_awaits other hmem)
  · rw [hpending]
    intro other hmem
    rcases List.mem_append.mp hmem with hold | hnew
    · have hawaits := sound.pending_awaits other hold
      exact hawaits.moveTo_of_ne _ r _ (hother other hawaits)
    · rw [List.mem_singleton.mp hnew]
      exact hself
  · intro o ho
    have hawaits := sound.outcome_awaits o ho
    exact hawaits.moveTo_of_ne _ r _ (hother o.1 hawaits)
  · intro hover
    obtain ⟨hclosed, henlisted⟩ := sound.afterEnd hover
    refine ⟨hclosed, fun other hmem => ?_⟩
    rw [hpending] at hmem
    rcases List.mem_append.mp hmem with hold | hnew
    · rw [moveTo_calls_of_ne _ _ _ _ (hother other (sound.pending_awaits other hold))]
      exact henlisted other hold
    · rw [List.mem_singleton.mp hnew]
      exact ⟨r, by simp⟩

theorem Sound.advance {s : Traffic} (sound : Sound s) {c : Connection} {id : Nat} {r : Request}
    {stage stage' : Stage} (there : s.calls id = some ⟨r, stage⟩) (canPend : stage'.CanPend)
    (inTime : stage = .enlisted → s.connection.closed = false)
    (same : SameRequests s.connection c) : Sound (s.moveTo c id r stage') := by
  have hpending : (s.moveTo c id r stage').pendingIds = s.pendingIds := pendingIds_eq same.pending
  have hmoved : stage' ≠ .numbered := by
    rintro rfl
    exact canPend
  refine ⟨fun other hlt => sound.fresh_moveTo there _ _ _ (by rw [← same.lastId]; exact hlt),
    fun other r' => sound.numbered_moveTo _ _ _ _ hmoved, ?_, ?_, ?_, ?_⟩
  · rw [hpending]
    exact sound.pending_nodup
  · rw [hpending]
    exact fun other hmem => (sound.pending_awaits other hmem).moveTo there c canPend
  · intro o ho
    exact (sound.outcome_awaits o (by rw [← same.outcomes]; exact ho)).moveTo there c canPend
  · intro hover
    obtain ⟨hclosed, henlisted⟩ := sound.afterEnd (by rw [← same.receiving]; exact hover)
    refine ⟨same.closed.trans hclosed, fun other hmem => ?_⟩
    rw [hpending] at hmem
    obtain ⟨r', hcall⟩ := henlisted other hmem
    -- A request that looks again after the end of receiving is too late, so this one did before it.
    by_cases hid : other = id
    · subst hid
      rw [there] at hcall
      cases hcall
      rw [inTime rfl] at hclosed
      cases hclosed
    · exact ⟨r', by rw [moveTo_calls_of_ne _ _ _ _ hid]; exact hcall⟩

theorem Sound.finish {s : Traffic} (sound : Sound s) {c : Connection} {id : Nat} {r : Request}
    {stage : Stage} (there : s.calls id = some ⟨r, stage⟩)
    (same : SameRequests (s.connection.release id) c) : Sound (s.moveTo c id r .ended) := by
  have hmem : ∀ {other}, other ∈ (s.moveTo c id r .ended).pendingIds →
      other ∈ s.pendingIds ∧ other ≠ id := (mem_pendingIds_release same.pending).mp
  have hlast : c.lastId = s.connection.lastId := same.lastId
  refine ⟨fun other hlt => sound.fresh_moveTo there _ _ _ (by rw [← hlast]; exact hlt),
    fun other r' => sound.numbered_moveTo _ _ _ .ended nofun,
    sound.pending_nodup.sublist (pendingIds_release_sublist same.pending), ?_, ?_, ?_⟩
  · intro other hother
    obtain ⟨hold, hne⟩ := hmem hother
    exact (sound.pending_awaits other hold).moveTo_of_ne c r _ hne
  · intro o ho
    have ho' : o ∈ (s.connection.release id).outcomes := by rw [← same.outcomes]; exact ho
    obtain ⟨hold, hne⟩ := List.mem_filter.mp ho'
    exact (sound.outcome_awaits o hold).moveTo_of_ne c r _ (by simpa using hne)
  · intro hover
    obtain ⟨hclosed, henlisted⟩ := sound.afterEnd (same.receiving.symm.trans hover)
    refine ⟨same.closed.trans hclosed, fun other hother => ?_⟩
    obtain ⟨hold, hne⟩ := hmem hother
    rw [moveTo_calls_of_ne _ _ _ _ hne]
    exact henlisted other hold

theorem Sound.reply {s : Traffic} (sound : Sound s) {c : Connection} {id : Nat}
    {outcome : Except Error Value} (pending : id ∈ s.pendingIds)
    (same : SameRequests (s.connection.resolve id outcome) c) : Sound (s.withConnection c) := by
  have hpending : (s.withConnection c).connection.pending = (s.connection.release id).pending :=
    same.pending
  have hmem : ∀ {other}, other ∈ (s.withConnection c).pendingIds → other ∈ s.pendingIds :=
    fun h => ((mem_pendingIds_release hpending).mp h).1
  refine ⟨?_, sound.numbered_expects, ?_, ?_, ?_, ?_⟩
  · intro other hlt
    refine sound.fresh other ?_
    have hsame : c.lastId = s.connection.lastId := same.lastId
    rw [← hsame]
    exact hlt
  · exact sound.pending_nodup.sublist (pendingIds_release_sublist hpending)
  · exact fun other hother => sound.pending_awaits other (hmem hother)
  · intro o ho
    have ho' : o ∈ (s.connection.resolve id outcome).outcomes := by rw [← same.outcomes]; exact ho
    rcases List.mem_append.mp ho' with hold | hnew
    · exact sound.outcome_awaits o hold
    · rw [List.mem_singleton.mp hnew]
      exact sound.pending_awaits id pending
  · intro hover
    obtain ⟨hclosed, henlisted⟩ := sound.afterEnd (same.receiving.symm.trans hover)
    exact ⟨same.closed.trans hclosed, fun other hother => henlisted other (hmem hother)⟩

theorem Sound.failPending {s : Traffic} (sound : Sound s)
    (closed : s.connection.closed = true) :
    Sound (s.withConnection s.connection.failPending) := by
  refine ⟨sound.fresh, sound.numbered_expects, List.nodup_nil,
    fun id hmem => absurd hmem List.not_mem_nil, ?_,
    fun _ => ⟨closed, fun id hmem => absurd hmem List.not_mem_nil⟩⟩
  intro o ho
  rcases List.mem_append.mp ho with hold | hnew
  · exact sound.outcome_awaits o hold
  · obtain ⟨p, hp, rfl⟩ := List.mem_map.mp hnew
    exact sound.pending_awaits p.1 (List.mem_map_of_mem hp)

theorem Effect.sound {s s' : Traffic} {e : Label} (effect : Effect s e s') (sound : Sound s) :
    Sound s' := by
  cases effect with
  | none silent idle same => exact sound.withSameRequests same
  | begin r next => exact sound.begin r next
  | enlist there => exact sound.enlist there
  | advance silent idle there canPend canPend' inTime same =>
      exact sound.advance there canPend' inTime same
  | finish there notEnded same => exact sound.finish there same
  | reply hasId replied pending same => exact sound.reply pending same
  | markClosed receiving =>
      refine { sound with afterEnd := fun hover => ?_ }
      -- Receiving was going on when the connection was marked.
      rw [show s.connection.receiving = false from hover] at receiving
      cases receiving
  | failPending closed => exact sound.failPending closed

theorem Run.sound {replyTimeout : Duration} {h : History} {s : Traffic}
    (run : Run replyTimeout h s) : Sound s := by
  induction run with
  | start => exact sound_start replyTimeout
  | snoc _ step ih => exact (step.effect ih).sound ih

/-! ## History and state fit together -/

/-- What the history says of the requests, as the state shows it. -/
structure Accounted (h : History) (s : Traffic) : Prop where
  issued : issuedIds h = List.range' 1 s.connection.lastId
  begun : ∀ id r stage, s.calls id = some ⟨r, stage⟩ → .begin id r ∈ h
  pending_iff : ∀ id, id ∈ s.pendingIds ↔ Unresolved h id
  answered : ∀ o ∈ s.connection.outcomes, ∀ v, o.2 = .ok v → Answered h o.1 v
  unfinished : ∀ id, (∀ r, s.calls id ≠ some ⟨r, .ended⟩) → outcomesOf h id = []
  finished_once : ∀ id, (outcomesOf h id).length ≤ 1

theorem accounted_start (replyTimeout : Duration) : Accounted [] (start replyTimeout) where
  issued := rfl
  begun _ _ _ h := by cases h
  pending_iff id := by
    constructor
    · intro h
      cases h
    · rintro ⟨past, future, hh, -⟩
      simp at hh
  answered _ h := by cases h
  unfinished _ _ := rfl
  finished_once _ := Nat.zero_le 1

/-- Ids are handed out one after the other. -/
theorem Effect.issued {s s' : Traffic} {e : Label} (effect : Effect s e s') :
    List.range' 1 s'.connection.lastId =
      List.range' 1 s.connection.lastId ++ e.issued?.toList := by
  cases effect with
  | none silent idle same =>
      have hsame := same.lastId
      simp [withConnection, hsame, silent.issued]
  | begin r next => simp [Label.issued?, next, List.range'_1_concat, Nat.add_comm]
  | enlist there => simp [Label.issued?, Connection.enlist]
  | advance silent idle there canPend canPend' inTime same =>
      have hsame := same.lastId
      simp [hsame, silent.issued]
  | finish there notEnded same =>
      have hsame := same.lastId
      simp [Label.issued?, hsame, Connection.release]
  | reply hasId replied pending same =>
      have hsame := same.lastId
      simp [Label.issued?, withConnection, hsame, Connection.resolve]
  | markClosed receiving => simp [Label.issued?, withConnection, Connection.markClosed]
  | failPending closed => simp [Label.issued?, withConnection, Connection.failPending]

/-- Nobody begins but by a step that says so. -/
theorem Effect.begun {s s' : Traffic} {e : Label} (effect : Effect s e s') {id : Nat}
    {r : Request} {stage : Stage} (there : s'.calls id = some ⟨r, stage⟩) :
    e = .begin id r ∨ ∃ stage', s.calls id = some ⟨r, stage'⟩ := by
  cases effect with
  | none | reply | markClosed | failPending => exact .inr ⟨stage, there⟩
  | @begin r' id' next =>
      by_cases hid : id = id'
      · subst hid
        obtain ⟨rfl, -⟩ : r' = r ∧ _ := by simpa using there
        exact .inl rfl
      · rw [moveTo_calls_of_ne _ _ _ _ hid] at there
        exact .inr ⟨stage, there⟩
  | @enlist id' r' held | @advance _ _ id' r' _ _ _ _ held | @finish _ id' r' _ _ held =>
      by_cases hid : id = id'
      · subst hid
        obtain ⟨rfl, -⟩ : r' = r ∧ _ := by simpa using there
        exact .inr ⟨_, held⟩
      · rw [moveTo_calls_of_ne _ _ _ _ hid] at there
        exact .inr ⟨stage, there⟩

/-- **What a step does to the table.** -/
theorem Effect.mem_pendingIds {s s' : Traffic} {e : Label} (effect : Effect s e s') (id : Nat) :
    id ∈ s'.pendingIds ↔ e = .enlist id ∨ id ∈ s.pendingIds ∧ ¬ e.Resolves id := by
  cases effect with
  | none silent idle same =>
      rw [@pendingIds_eq s (s.withConnection _) same.pending]
      exact ⟨fun hmem => .inr ⟨hmem, idle id hmem⟩,
        fun h => h.elim (fun he => absurd he (silent.enlists id)) And.left⟩
  | begin r next => simp [pendingIds, Label.Resolves]
  | enlist there => simp [pendingIds, Label.Resolves, Connection.enlist, or_comm, eq_comm]
  | advance silent idle there canPend canPend' inTime same =>
      rw [@pendingIds_eq s (s.moveTo _ _ _ _) same.pending]
      exact ⟨fun hmem => .inr ⟨hmem, idle id hmem⟩,
        fun h => h.elim (fun he => absurd he (silent.enlists id)) And.left⟩
  | finish there notEnded same =>
      rw [@mem_pendingIds_release s (s.moveTo _ _ _ _) _ _ same.pending]
      simp [Label.Resolves, eq_comm]
  | reply hasId replied pending same =>
      rw [@mem_pendingIds_release s (s.withConnection _) _ _ same.pending]
      simp [Label.Resolves, replied, eq_comm]
  | markClosed receiving =>
      simp [pendingIds, withConnection, Connection.markClosed, Label.Resolves]
  | failPending closed =>
      simp [pendingIds, withConnection, Connection.failPending, Label.Resolves]

/-- Outcomes come from replies, or from the end of the connection. -/
theorem Effect.mem_outcomes {s s' : Traffic} {e : Label} (effect : Effect s e s')
    {o : Nat × Except Error Value} (ho : o ∈ s'.connection.outcomes) :
    o ∈ s.connection.outcomes ∨ o.2 = .error .connectionClosed ∨
      ∃ members method, e = .handle (.object members) ∧ members.get? "id" = some (.int o.1) ∧
        o.1 ∈ s.pendingIds ∧ o.2 = Inbound.resultOf method members := by
  cases effect with
  | none silent idle same | advance silent idle _ _ _ _ same =>
      exact .inl (by rw [← same.outcomes]; exact ho)
  | begin | enlist | markClosed => exact .inl ho
  | @finish c id r stage outcome there notEnded same =>
      have ho' : o ∈ (s.connection.release id).outcomes := by rw [← same.outcomes]; exact ho
      exact .inl (List.mem_filter.mp ho').1
  | @reply c id members method hasId replied pending same =>
      have ho' : o ∈ (s.connection.resolve id (Inbound.resultOf method members)).outcomes := by
        rw [← same.outcomes]
        exact ho
      rcases List.mem_append.mp ho' with hold | hnew
      · exact .inl hold
      · obtain rfl := List.mem_singleton.mp hnew
        exact .inr (.inr ⟨_, _, rfl, hasId, pending, rfl⟩)
  | failPending closed =>
      rcases List.mem_append.mp ho with hold | hnew
      · exact .inl hold
      · obtain ⟨p, -, rfl⟩ := List.mem_map.mp hnew
        exact .inr (.inl rfl)

/-- Whether the caller of the request `id` has got an outcome. -/
def Ended (s : Traffic) (id : Nat) : Prop := ∃ r, s.calls id = some ⟨r, .ended⟩

/-- An outcome is given to a caller who has none yet, and who has one from then on. -/
theorem Effect.outcomeFor? {s s' : Traffic} {e : Label} (effect : Effect s e s')
    (sound : Sound s) (id : Nat) :
    e.outcomeFor? id = Option.none ∧ (s.Ended id ↔ s'.Ended id) ∨ ¬ s.Ended id ∧ s'.Ended id := by
  -- The stage of a call that is not at its end changes to another such stage.
  have hkeeps : ∀ {c : Connection} {id' : Nat} {r : Request} {stage : Stage},
      ¬ s.Ended id' → stage ≠ .ended → (s.Ended id ↔ (s.moveTo c id' r stage).Ended id) := by
    intro c id' r stage hended hstage
    by_cases hid : id = id'
    · subst hid
      refine iff_of_false hended ?_
      rintro ⟨r', hcall⟩
      exact hstage (by simpa using congrArg (Option.map Call.stage) hcall)
    · unfold Ended
      rw [moveTo_calls_of_ne _ _ _ _ hid]
  have hnot : ∀ {id' : Nat} {r : Request} {stage : Stage}, s.calls id' = some ⟨r, stage⟩ →
      stage ≠ .ended → ¬ s.Ended id' := by
    rintro id' r stage there hstage ⟨r', hcall⟩
    rw [there] at hcall
    cases hcall
    exact hstage rfl
  cases effect with
  | none silent => exact .inl ⟨silent.outcome id, Iff.rfl⟩
  | reply | markClosed | failPending => exact .inl ⟨rfl, Iff.rfl⟩
  | @begin r id' next =>
      refine .inl ⟨rfl, hkeeps ?_ (by split <;> nofun)⟩
      rintro ⟨r', hcall⟩
      have := sound.le_lastId hcall
      omega
  | enlist there => exact .inl ⟨rfl, hkeeps (hnot there nofun) nofun⟩
  | advance silent idle there canPend canPend' =>
      refine .inl ⟨silent.outcome id, hkeeps (hnot there ?_) ?_⟩
      · rintro rfl
        exact canPend
      · rintro rfl
        exact canPend'
  | @finish c id' r stage outcome there notEnded same =>
      by_cases hid : id = id'
      · subst hid
        exact .inr ⟨hnot there notEnded, r, by simp⟩
      · refine .inl ⟨by simp [Label.outcomeFor?, Ne.symm hid], ?_⟩
        unfold Ended
        rw [moveTo_calls_of_ne _ _ _ _ hid]

theorem Accounted.step {h : History} {s s' : Traffic} {e : Label} (accounted : Accounted h s)
    (effect : Effect s e s') (sound : Sound s) : Accounted (h ++ [e]) s' := by
  refine ⟨?_, ?_, ?_, ?_, ?_, ?_⟩
  · rw [issuedIds_snoc, accounted.issued, effect.issued]
  · intro id r stage there
    rcases effect.begun there with rfl | ⟨stage', hold⟩
    · simp
    · exact List.mem_append_left _ (accounted.begun id r stage' hold)
  · intro id
    rw [effect.mem_pendingIds, unresolved_snoc, accounted.pending_iff]
  · intro o ho v hv
    rcases effect.mem_outcomes ho with hold | hclosed | ⟨members, method, rfl, hid, hmem, hresult⟩
    · exact (accounted.answered o hold v hv).snoc e
    · rw [hclosed] at hv
      cases hv
    -- It was pending, hence unresolved, when the message was handled.
    · obtain ⟨herror, hvalue⟩ := resultOf_eq_ok (hresult.symm.trans hv)
      exact ⟨h, members, [], rfl, (accounted.pending_iff o.1).mp hmem, hid, herror, hvalue⟩
  · intro id hnot
    rw [outcomesOf_snoc]
    rcases effect.outcomeFor? sound id with ⟨hnone, hiff⟩ | ⟨-, r, hcall⟩
    · have hold : ¬ s.Ended id := fun hended => by
        obtain ⟨r, hcall⟩ := hiff.mp hended
        exact hnot r hcall
      rw [hnone, accounted.unfinished id fun r hcall => hold ⟨r, hcall⟩]
      rfl
    · exact absurd hcall (hnot r)
  · intro id
    rw [outcomesOf_snoc]
    rcases effect.outcomeFor? sound id with ⟨hnone, -⟩ | ⟨hnot, -⟩
    · simpa [hnone] using accounted.finished_once id
    · rw [accounted.unfinished id fun r hcall => hnot ⟨r, hcall⟩]
      cases e.outcomeFor? id <;> simp

theorem Run.accounted {replyTimeout : Duration} {h : History} {s : Traffic}
    (run : Run replyTimeout h s) : Accounted h s := by
  induction run with
  | start => exact accounted_start replyTimeout
  | snoc before step ih => exact ih.step (step.effect before.sound) before.sound

/-! ## Correlation -/

/-- What a caller finds is what the table of outcomes holds under its id. -/
theorem lookup_of_outcome?_eq_ok {c : Connection} {id : Nat} {method : String}
    {since now : Instant} {timeout : Duration} {reply : Reply}
    (h : c.outcome? id method since timeout now = some (.ok reply)) :
    reply.id = id ∧ reply.method = method ∧ c.outcomes.lookup id = some (.ok reply.result) := by
  unfold Connection.outcome? at h
  split at h
  · next result hlookup =>
      cases h
      exact ⟨rfl, rfl, hlookup⟩
  · cases h
  · split at h <;> cases h

/-- A caller gets a reply only after it was answered with the result of that reply. -/
theorem Run.answered_of_finish {replyTimeout : Duration} {h : History} {s s' : Traffic} {id : Nat}
    {reply : Reply} (run : Run replyTimeout h s)
    (step : Step s (.finish id (.ok (some reply))) s') :
    ∃ r, .begin id r ∈ h ∧ reply.id = id ∧ reply.method = r.method ∧
      Answered h id reply.result := by
  generalize he : Label.finish id (.ok (some reply)) = e at step
  cases step with
  | @collect id' r since now outcome there found =>
      obtain ⟨rfl, hmap⟩ : id = id' ∧ Except.ok (some reply) = outcome.map some := by
        simpa using he
      obtain rfl : outcome = .ok reply := by
        cases outcome with
        | error e => cases hmap
        | ok reply' => cases hmap; rfl
      obtain ⟨hid, hmethod, hlookup⟩ := lookup_of_outcome?_eq_ok found
      obtain ⟨l₁, l₂, hsplit, -⟩ := List.lookup_eq_some_iff.mp hlookup
      have hmem : (id, Except.ok reply.result) ∈ s.connection.outcomes := by simp [hsplit]
      exact ⟨r, run.accounted.begun id r _ there, hid, hmethod,
        run.accounted.answered _ hmem reply.result rfl⟩
  | _ => cases he

/-- A caller gets no reply at success only if it expects none. -/
theorem Run.expects_of_finish {replyTimeout : Duration} {h : History} {s s' : Traffic} {id : Nat}
    (run : Run replyTimeout h s) (step : Step s (.finish id (.ok none)) s') :
    ∃ r, .begin id r ∈ h ∧ r.expectsReply = false := by
  generalize he : Label.finish id (.ok none) = e at step
  cases step with
  | @post c id' r there expects written =>
      obtain rfl : id = id' := by simpa using he
      exact ⟨r, run.accounted.begun id r _ there, expects⟩
  | @collect id' r since now outcome there found => cases outcome <;> cases he
  | _ => cases he

/-- A message changes nothing for a request that it does not reply to, or that is not pending. -/
theorem Step.handle_frame {s s' : Traffic} {m : Value} (step : Step s (.handle m) s') {id : Nat}
    (other : repliedId? m = some id → id ∉ s.pendingIds) :
    s'.calls id = s.calls id ∧ (id ∈ s'.pendingIds ↔ id ∈ s.pendingIds) ∧
      ∀ method since timeout now, s'.connection.outcome? id method since timeout now =
        s.connection.outcome? id method since timeout now := by
  cases step with
  | @handle m rest receiving isOpen goesOn next =>
      refine ⟨rfl, ?_⟩
      rcases handle_cases { s.connection with inbox := rest } m with
        ⟨id', members, method, rfl, hid, hreplied, hpending, hconn⟩ | ⟨-, events, hconn⟩
      · have hne : id ≠ id' := fun h => other (by rw [hreplied, h]) (by rw [h]; exact hpending)
        rw [hconn]
        refine ⟨?_, fun method' since timeout now => ?_⟩
        · exact (@mem_pendingIds_release s _ id' _ rfl).trans
            ⟨And.left, fun hmem => ⟨hmem, hne⟩⟩
        · have hlookup : (s.connection.outcomes ++
              [(id', Inbound.resultOf method members)]).lookup id =
                s.connection.outcomes.lookup id := by
            rw [List.lookup_append, List.lookup_cons, beq_false_of_ne hne]
            simp
          simp only [Connection.outcome?, Connection.resolve, withConnection, hlookup]
      · rw [hconn]
        exact ⟨Iff.rfl, fun _ _ _ _ => rfl⟩

/-- **Replies reach their calls.** In every run of a connection:

* the ids handed out are pairwise distinct;
* no caller gets two outcomes;
* a caller gets a reply only if, while its request was unresolved, an object was handled that
  has the id of the request, no error, and the result it gets; it succeeds without a reply only
  if it expects none;
* a message that replies to another request, or to one that is not pending, changes nothing for
  a request: neither what its caller finds nor whether it is pending;
* the table of pending requests holds each of the unresolved requests, once, and no other;
* after the end of receiving nothing is pending any more, but for requests that are between their
  two looks at the connection, which the second look takes away. -/
theorem replies_reach_their_calls {replyTimeout : Duration} {h : History} {s : Traffic}
    (run : Run replyTimeout h s) :
    (issuedIds h).Nodup ∧
    (∀ id, (outcomesOf h id).length ≤ 1) ∧
    (∀ past id reply future, h = past ++ .finish id (.ok (some reply)) :: future →
      ∃ r, .begin id r ∈ past ∧ reply.id = id ∧ reply.method = r.method ∧
        Answered past id reply.result) ∧
    (∀ past id future, h = past ++ .finish id (.ok none) :: future →
      ∃ r, .begin id r ∈ past ∧ r.expectsReply = false) ∧
    (∀ m s', Step s (.handle m) s' → ∀ id, (repliedId? m = some id → id ∉ s.pendingIds) →
      s'.calls id = s.calls id ∧ (id ∈ s'.pendingIds ↔ id ∈ s.pendingIds) ∧
      ∀ method since timeout now, s'.connection.outcome? id method since timeout now =
        s.connection.outcome? id method since timeout now) ∧
    s.pendingIds.Nodup ∧ (∀ id, id ∈ s.pendingIds ↔ Unresolved h id) ∧
    (s.connection.receiving = false → s.connection.closed = true ∧
      (∀ id ∈ s.pendingIds, ∃ r, s.calls id = some ⟨r, .enlisted⟩) ∧
      ((∀ id r, s.calls id ≠ some ⟨r, .enlisted⟩) → s.pendingIds = [])) := by
  refine ⟨?_, run.accounted.finished_once, ?_, ?_, fun m s' step id => step.handle_frame,
    run.sound.pending_nodup, run.accounted.pending_iff, ?_⟩
  · rw [run.accounted.issued]
    exact List.nodup_range'
  · rintro past id reply future rfl
    obtain ⟨s₁, s₂, before, step⟩ := run.split
    exact before.answered_of_finish step
  · rintro past id future rfl
    obtain ⟨s₁, s₂, before, step⟩ := run.split
    exact before.expects_of_finish step
  · -- After the end only a call that lost a race can be pending.
    intro hover
    obtain ⟨hclosed, henlisted⟩ := run.sound.afterEnd hover
    refine ⟨hclosed, henlisted, fun hnone => List.eq_nil_iff_forall_not_mem.mpr fun id hmem => ?_⟩
    obtain ⟨r, hcall⟩ := henlisted id hmem
    exact hnone id r hcall

/-- Two requests that are answered in the other order, and whose callers get each their own
result. -/
theorem replies_reach_their_calls_swapped :
    ∃ h s, Run 0 h s ∧ .finish 1 (.ok (some ⟨1, "A.a", .int 10⟩)) ∈ h ∧
      .finish 2 (.ok (some ⟨2, "B.b", .int 20⟩)) ∈ h ∧ (issuedIds h).Nodup ∧
      (∀ id, id ∈ s.pendingIds ↔ Unresolved h id) := by
  have a₁ := (Run.start : Run 0 [] _).snoc (.begin ⟨"A.a", .null, true, 0⟩ rfl)
  have a₂ := a₁.snoc (e := .enlist 1) (.enlist rfl)
  have a₃ := a₂.snoc (e := .confirm 1) (.confirm rfl rfl)
  have a₄ := a₃.snoc (e := .write 1) (.write 0 rfl rfl rfl)
  have b₁ := a₄.snoc (.begin ⟨"B.b", .null, true, 0⟩ rfl)
  have b₂ := b₁.snoc (e := .enlist 2) (.enlist rfl)
  have b₃ := b₂.snoc (e := .confirm 2) (.confirm rfl rfl)
  have b₄ := b₃.snoc (e := .write 2) (.write 0 rfl rfl rfl)
  have b₅ := b₄.snoc (.arrive (.object ⟨[("id", .int 2), ("result", .int 20)]⟩))
  have b₆ := b₅.snoc (.handle rfl rfl rfl rfl)
  have a₅ := b₆.snoc (.arrive (.object ⟨[("id", .int 1), ("result", .int 10)]⟩))
  have a₆ := a₅.snoc (.handle rfl rfl rfl rfl)
  have a₇ := a₆.snoc (@Step.collect _ 1 _ _ 0 _ rfl rfl)
  have b₇ := a₇.snoc (@Step.collect _ 2 _ _ 0 _ rfl rfl)
  obtain ⟨hnodup, -, -, -, -, -, hpending, -⟩ := replies_reach_their_calls b₇
  exact ⟨_, _, b₇, by simp [Except.map], by simp [Except.map], hnodup, hpending⟩

end TabPilot.Traffic
