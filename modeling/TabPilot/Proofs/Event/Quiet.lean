import TabPilot.Proofs.Event.Vigils

set_option autoImplicit false

/-! # When waits for quiet end

A call waits until each of the events it names has come since it began and is long enough ago, or,
if it names none, until no event at all has come for long enough. `no_quiet_too_early` says that
such a wait never ends well before that, and in vain only around its deadline.

All calls share what the waiters remember. `ends_when_quiet_unless_disturbed` says exactly when a
call ends well: it is quiet, and no other call that names one of the same events has begun, or ended
well, since that event came last. `late_though_quiet` is a call that another one has disturbed so.
-/

namespace TabPilot.Vigils

/-- Every event that a wait names has come, and is long enough ago at an instant. -/
def QuietSince (i : IdleWait) (between : History) (t : Instant) : Prop :=
  ∀ name ∈ i.names, times name between ≠ [] ∧ ∀ r ∈ times name between, r + i.idle ≤ t

/-- A call other than the one given makes the waiters forget when events of a name came: it names
them, and begins or ends well. -/
def IsForgettingOf (name : String) (call : Nat) (a : Action) : Prop :=
  ∃ other j, other ≠ call ∧ name ∈ j.names ∧
    (a = .begin other j ∨ ∃ t v, a = .look other j t (some (.ok v)))

/-- Another call has made the waiters forget an event that a call waits for, and it has not come
since. -/
def Disturbed (call : Nat) (i : IdleWait) (between : History) : Prop :=
  ∃ name ∈ i.names, ∃ before a after, between = before ++ a :: after ∧
    IsForgettingOf name call a ∧ times name after = []

/-! ## Looks -/

/-- No call begins twice. -/
theorem Run.begin_not_mem {created : Instant} {h : History} {s : Vigils} (run : Run created h s)
    {call : Nat} {i j : IdleWait} {between : History} (began : since call h = some (i, between)) :
    .begin call j ∉ between := by
  induction run generalizing between with
  | start => cases began
  | @snoc h s s' a before step ih =>
      rw [since_snoc] at began
      cases hbegan : since call h with
      | none =>
          rw [hbegan] at began
          cases a with
          | begin other k =>
              by_cases hother : other = call
              · obtain ⟨-, rfl⟩ : k = i ∧ [] = between := by simpa [hother] using began
                simp
              · simp [hother] at began
          | _ => cases began
      | some entry =>
          obtain ⟨k, earlier⟩ := entry
          rw [hbegan] at began
          cases began
          intro hmem
          rcases List.mem_append.mp hmem with hold | hnew
          · exact ih hbegan hold
          · obtain rfl := List.mem_singleton.mp hnew
            cases step with
            | begin _ _ fresh _ =>
                rw [fresh] at hbegan
                cases hbegan

/-- What a call remembers at a look, and what it comes to. -/
theorem Run.look_cases {created : Instant} {past : History} {s s' : Vigils} {call : Nat}
    {i : IdleWait} {t : Instant} {result : Option (Except Error Value)} (run : Run created past s)
    (step : Step past s (.look call i t result) s') :
    t = s.now ∧ ∃ between, since call past = some (i, between) ∧ ended call between = false ∧
      t = i.pollAt (looks call between) ∧
      ((i.isQuiet s.waiters t = true ∧
          result = some (.ok (.int (Duration.millis (t - i.started))))) ∨
        (i.isQuiet s.waiters t = false ∧ i.deadline ≤ t ∧
          result = some (.error (IdleWait.lateQuiet i.timeout))) ∨
        (i.isQuiet s.waiters t = false ∧ t < i.deadline ∧ result = none)) := by
  cases step with
  | look there looked =>
      obtain ⟨between, began, going, hnext⟩ := run.punctual.begun_of_waits there
      obtain ⟨hdue, hcases⟩ := look?_quiet_cases looked
      refine ⟨rfl, between, began, going, hnext ▸ run.punctual.now_eq there hdue, ?_⟩
      rcases hcases with ⟨hquiet, -, rfl⟩ | ⟨hloud, -, hlate, rfl⟩ | ⟨hloud, -, hearly, rfl⟩
      · exact .inl ⟨hquiet, rfl⟩
      · exact .inr (.inl ⟨hloud, hlate, rfl⟩)
      · exact .inr (.inr ⟨hloud, hearly, rfl⟩)

/-- What came since a call began has come. -/
theorem mem_times_of_since {call : Nat} {h between : History} {i : IdleWait} {name : String}
    {t : Instant} (began : since call h = some (i, between)) (ht : t ∈ times name between) :
    t ∈ times name h := by
  obtain ⟨past, rfl⟩ := eq_append_of_since began
  obtain ⟨e, he, hname⟩ := mem_times.mp ht
  exact mem_times.mpr ⟨e, by simp [he], hname⟩

/-- Names are quiet if each was heard and is long enough ago. -/
theorem isQuiet_iff {i : IdleWait} {w : Waiters} {now : Instant} (named : i.names ≠ []) :
    i.isQuiet w now = true ↔
      ∀ name ∈ i.names, ∃ seen, w.lastSeen name = some seen ∧ i.idle ≤ now - seen := by
  have hnonempty : i.names.isEmpty = false := by simpa using named
  rw [IdleWait.isQuiet, hnonempty, if_neg Bool.false_ne_true, List.all_eq_true]
  refine forall_congr' fun name => forall_congr' fun _ => ?_
  cases w.lastSeen name <;> simp

/-- The waiters find it quiet exactly if it is quiet and they have forgotten nothing of it. -/
theorem Memory.isQuiet_iff {created : Instant} {h between : History} {s : Vigils} {call : Nat}
    {i : IdleWait} (m : Memory created h s) (began : since call h = some (i, between))
    (named : i.names ≠ []) :
    i.isQuiet s.waiters s.now = true ↔
      QuietSince i between s.now ∧ ∀ name ∈ i.names, ¬ Forgotten name between := by
  have hheard : ∀ name ∈ i.names, s.waiters.lastSeen name = lastHeard name between :=
    fun name hname => (m.remembers name).trans (lastHeard_eq_of_since began hname)
  rw [Vigils.isQuiet_iff named]
  constructor
  · intro hquiet
    refine ⟨fun name hname => ?_, fun name hname hforgotten => ?_⟩
    · obtain ⟨seen, hseen, hidle⟩ := hquiet name hname
      have hlast := (lastHeard_eq_some_iff.mp ((hheard name hname).symm.trans hseen)).1
      refine ⟨fun hnone => by simp [hnone] at hlast, fun r hr => ?_⟩
      -- What is remembered is the newest, so everything else is still longer ago.
      have hnewest : r ≤ seen := m.newest name seen ((m.remembers name).symm.trans hseen) r
        (mem_times_of_since began hr)
      have hseenle : seen ≤ s.now :=
        m.times_le (mem_times_of_since began (List.mem_of_getLast? hlast))
      grind
    · obtain ⟨seen, hseen, -⟩ := hquiet name hname
      exact (lastHeard_eq_some_iff.mp ((hheard name hname).symm.trans hseen)).2 hforgotten
  · rintro ⟨hquiet, hkept⟩ name hname
    obtain ⟨hcame, hago⟩ := hquiet name hname
    have hlast := List.getLast?_eq_some_getLast hcame
    refine ⟨_, (hheard name hname).trans
      (lastHeard_eq_some_iff.mpr ⟨hlast, hkept name hname⟩), ?_⟩
    have hidle := hago _ (List.getLast_mem hcame)
    grind

/-- What was forgotten while a call waits, another one has made the waiters forget. -/
theorem Run.disturbed_iff {created : Instant} {h between : History} {s : Vigils} {call : Nat}
    {i : IdleWait} (run : Run created h s) (began : since call h = some (i, between))
    (going : ended call between = false) :
    Disturbed call i between ↔ ∃ name ∈ i.names, Forgotten name between := by
  constructor
  · rintro ⟨name, hname, before, a, after, rfl, ⟨other, j, -, hj, hcases⟩, hafter⟩
    refine ⟨name, hname, before, a, after, rfl, ?_, hafter⟩
    rcases hcases with rfl | ⟨t, v, rfl⟩ <;> simpa [Action.forgets] using hj
  · rintro ⟨name, hname, before, a, after, rfl, hforgets, hafter⟩
    refine ⟨name, hname, before, a, after, rfl, ?_, hafter⟩
    cases a with
    | begin other j =>
        refine ⟨other, j, ?_, by simpa [Action.forgets] using hforgets, .inl rfl⟩
        rintro rfl
        have hmem : .begin other j ∈ before ++ .begin other j :: after := by simp
        exact run.begin_not_mem began hmem
    | look other j t result =>
        cases result with
        | none => cases hforgets
        | some r =>
            cases r with
            | error e => cases hforgets
            | ok v =>
                refine ⟨other, j, ?_, by simpa [Action.forgets] using hforgets, .inr ⟨t, v, rfl⟩⟩
                rintro rfl
                simp [ended, Action.endsCall] at going
    | _ => cases hforgets

/-! ## Endings -/

/-- Two calls at the same time. The event that the first one names comes before the second one
begins; the first one ends in vain if the second one names it too, and well if not. -/
theorem run_of_two_calls {name : String} (hname : name = "A.b" ∨ name = "C.d") :
    let i : IdleWait := ⟨2000000, ["A.b"], 3000000, 3000000, 0⟩
    let j : IdleWait := ⟨1000000, [name], 9000000, 9000000, 1000000⟩
    ∃ s, Run 0 ([.begin 0 i, .look 0 i 0 none, .record 0 ⟨"A", "b", .null⟩, .pass, .begin 1 j,
      .look 1 j 1000000 none, .pass] ++ [.look 0 i 3000000 (some
        (if name = "A.b" then .error (IdleWait.lateQuiet 3000000) else .ok (.int 3)))]) s := by
  have a₁ := Run.start.snoc (.begin 0 ⟨2000000, ["A.b"], 3000000, 3000000, 0⟩ rfl rfl)
  have a₂ := a₁.snoc (.look (turn_waits_self _ _ _ _) rfl)
  have a₃ := a₂.snoc (.record ⟨"A", "b", .null⟩)
  have a₄ := a₃.snoc (.pass 1000000 (by decide) fun call wait there => by
    by_cases h0 : call = 0
    · subst h0
      cases there
      decide
    · simp [turn, Function.update, h0] at there)
  have b₁ := a₄.snoc (.begin 1 ⟨1000000, [name], 9000000, 9000000, 1000000⟩ rfl rfl)
  -- From here on it counts what the second call has made the waiters forget.
  rcases hname with rfl | rfl
  all_goals
    have b₂ := b₁.snoc (.look (turn_waits_self _ _ _ _) rfl)
    have b₃ := b₂.snoc (.pass 3000000 (by decide) fun call wait there => by
      by_cases h0 : call = 0
      · subst h0
        cases there
        decide
      · by_cases h1 : call = 1
        · subst h1
          cases there
          decide
        · simp [turn, Function.update, h0, h1] at there)
  · exact ⟨_, b₃.snoc (@Step.look _ _ 0 ⟨2000000, ["A.b"], 3000000, 3000000, 0⟩ 3000000 _
      (.ended (.error (IdleWait.lateQuiet 3000000))) rfl rfl)⟩
  · exact ⟨_, b₃.snoc (@Step.look _ _ 0 ⟨2000000, ["A.b"], 3000000, 3000000, 0⟩ 3000000 _
      (.ended (.ok (.int 3))) rfl rfl)⟩

/-- **Waits for quiet do not end too early.** Whenever a call ends, in any history of any number of
calls and events:

* if it ends well and names events, each of them has come since it began, and none has come later
  than `idle` ago;
* if it ends well and names none, no event at all has come later than `idle` ago, and the waiters
  are at least that old;
* if it ends in vain, its timeout has passed, and it is no later than any whole millisecond from
  its deadline on. -/
theorem no_quiet_too_early {created : Instant} {h past future : History} {s : Vigils} {call : Nat}
    {i : IdleWait} {t : Instant} {r : Except Error Value} (run : Run created h s)
    (ends : h = past ++ .look call i t (some r) :: future) :
    ∃ between, since call past = some (i, between) ∧
      (∀ v, r = .ok v → i.names ≠ [] → ∀ name ∈ i.names,
        times name between ≠ [] ∧ ∀ q ∈ times name past, q + i.idle ≤ t) ∧
      (∀ v, r = .ok v → i.names = [] →
        created + i.idle ≤ t ∧ ∀ q e, .record q e ∈ past → q + i.idle ≤ t) ∧
      (∀ e, r = .error e → e = IdleWait.lateQuiet i.timeout ∧ i.started + i.timeout ≤ t ∧
        ∀ u, nanosPerMilli ∣ u → i.started + i.timeout ≤ u → t ≤ u) := by
  subst ends
  obtain ⟨s₁, s₂, before, step⟩ := run.split
  obtain ⟨rfl, between, began, -, hpoll, hcases⟩ := before.look_cases step
  have hmemory := before.memory
  refine ⟨between, began, ?_, ?_, ?_⟩
  · rintro v rfl named name hname
    have hquiet : i.isQuiet s₁.waiters s₁.now = true := by
      rcases hcases with ⟨hquiet, -⟩ | ⟨-, -, hr⟩ | ⟨-, -, hr⟩
      · exact hquiet
      · cases hr
      · cases hr
    refine ⟨(((hmemory.isQuiet_iff began named).mp hquiet).1 name hname).1, fun q hq => ?_⟩
    obtain ⟨seen, hseen, hidle⟩ := (isQuiet_iff named).mp hquiet name hname
    have hheard : lastHeard name past = some seen := (hmemory.remembers name).symm.trans hseen
    -- What was last seen of the name is the newest of its times.
    have hnewest : q ≤ seen := hmemory.newest name seen hheard q hq
    have hseenle : seen ≤ s₁.now :=
      hmemory.times_le (List.mem_of_getLast? (lastHeard_eq_some_iff.mp hheard).1)
    grind
  · rintro v rfl hnone
    have hidle : i.idle ≤ s₁.now - s₁.waiters.lastAny := by
      rcases hcases with ⟨hquiet, -⟩ | ⟨-, -, hr⟩ | ⟨-, -, hr⟩
      · simpa [IdleWait.isQuiet, hnone] using hquiet
      · cases hr
      · cases hr
    have hany := hmemory.lastAny_le
    refine ⟨?_, fun q e he => ?_⟩
    · have hcreated := hmemory.created_le
      grind
    · have hq := hmemory.records_le q e he
      grind
  · rintro e rfl
    rcases hcases with ⟨-, hr⟩ | ⟨-, hlate, hr⟩ | ⟨-, -, hr⟩
    · cases hr
    · cases hr
      refine ⟨rfl, hlate, fun u hwhole hu => ?_⟩
      rw [hpoll]
      exact Nat.le_trans (pollAt_le i _) (Instant.tick_le hu hwhole)
    · cases hr

/-- The first of two calls at the same time: its event had come, and two milliseconds before. -/
theorem no_quiet_too_early_overlap :
    let i : IdleWait := ⟨2000000, ["A.b"], 3000000, 3000000, 0⟩
    ∃ past s, Run 0 (past ++ [.look 0 i 3000000 (some (.ok (.int 3)))]) s ∧
      .record 0 ⟨"A", "b", .null⟩ ∈ past ∧ ∀ q ∈ times "A.b" past, q + 2000000 ≤ 3000000 := by
  intro i
  obtain ⟨s, run⟩ := run_of_two_calls (.inr rfl)
  obtain ⟨between, -, hnamed, -⟩ := no_quiet_too_early run rfl
  exact ⟨_, s, run, by simp, (hnamed _ rfl (by simp) "A.b" (by simp)).2⟩

/-- **A wait for quiet ends when it is quiet unless another call disturbs it.** A call that names
events looks how it stands at its own poll instants, up to the first whole millisecond from its
deadline on, and at none after it has ended; before it has ended, time does not pass the next one.
At a look

* it ends well exactly if every event it names has come since it began and is long enough ago, and
  no other call that names one of them has begun or ended well since that one came last;
* it ends in vain exactly if this is not so and its deadline is reached. -/
theorem ends_when_quiet_unless_disturbed {created : Instant} {h between : History} {s : Vigils}
    {call : Nat} {i : IdleWait} (run : Run created h s)
    (began : since call h = some (i, between)) (named : i.names ≠ []) :
    (∀ earlier j t result later, between = earlier ++ .look call j t result :: later →
      j = i ∧ t = i.pollAt (looks call earlier) ∧ t ≤ i.deadline.tick ∧
      ended call earlier = false ∧
      ((∃ v, result = some (.ok v)) ↔ QuietSince i earlier t ∧ ¬ Disturbed call i earlier) ∧
      ((∃ e, result = some (.error e)) ↔
        ¬ (QuietSince i earlier t ∧ ¬ Disturbed call i earlier) ∧ i.deadline ≤ t)) ∧
    (ended call between = false → s.now ≤ i.pollAt (looks call between)) := by
  constructor
  · rintro earlier j t result later rfl
    obtain ⟨past, rfl, hfirst⟩ := since_eq_some_iff.mp began
    have hbegan : since call (past ++ .begin call i :: earlier) = some (i, earlier) :=
      since_eq_some_iff.mpr ⟨past, rfl, hfirst⟩
    have hrun : Run created ((past ++ .begin call i :: earlier) ++
        .look call j t result :: later) s := by simpa using run
    obtain ⟨s₁, s₂, before, step⟩ := hrun.split
    obtain ⟨rfl, earlier', hbegan', going, hpoll, hcases⟩ := before.look_cases step
    obtain ⟨rfl, rfl⟩ : i = j ∧ earlier = earlier' := by simpa [hbegan] using hbegan'
    -- A look sees the quiet there is, unless another call has had a name forgotten.
    have hquiet : i.isQuiet s₁.waiters s₁.now = true ↔
        QuietSince i earlier s₁.now ∧ ¬ Disturbed call i earlier := by
      rw [before.memory.isQuiet_iff hbegan named, before.disturbed_iff hbegan going]
      simp
    refine ⟨rfl, hpoll, hpoll ▸ pollAt_le i _, going, ?_, ?_⟩
    · rw [← hquiet]
      rcases hcases with ⟨hyes, rfl⟩ | ⟨hno, -, rfl⟩ | ⟨hno, -, rfl⟩
      · simp [hyes]
      · simp [hno]
      · simp [hno]
    · rw [← hquiet]
      rcases hcases with ⟨hyes, rfl⟩ | ⟨hno, hlate, rfl⟩ | ⟨hno, hearly, rfl⟩
      · simp [hyes]
      · simp [hno, hlate]
      · simp [hno, hearly]
  · intro going
    have hwaits := run.punctual.waits call i between began
    rw [going, if_neg Bool.false_ne_true] at hwaits
    exact run.punctual.awake call i _ hwaits

/-- A call for another event does not disturb the first of two. -/
theorem ends_when_quiet_unless_disturbed_overlap :
    let i : IdleWait := ⟨2000000, ["A.b"], 3000000, 3000000, 0⟩
    ∃ h s earlier, Run 0 h s ∧
      since 0 h = some (i, earlier ++ [.look 0 i 3000000 (some (.ok (.int 3)))]) ∧
      QuietSince i earlier 3000000 ∧ ¬ Disturbed 0 i earlier := by
  intro i
  obtain ⟨s, run⟩ := run_of_two_calls (.inr rfl)
  obtain ⟨hlooks, -⟩ := @ends_when_quiet_unless_disturbed 0 _ _ s 0 i run rfl (by simp [i])
  obtain ⟨-, -, -, -, hok, -⟩ := hlooks [.look 0 i 0 none, .record 0 ⟨"A", "b", .null⟩, .pass,
    .begin 1 ⟨1000000, ["C.d"], 9000000, 9000000, 1000000⟩,
    .look 1 ⟨1000000, ["C.d"], 9000000, 9000000, 1000000⟩ 1000000 none, .pass] i 3000000 _ [] rfl
  exact ⟨_, s, _, run, rfl, hok.mp ⟨_, rfl⟩⟩

/-- Two calls wait for the same event. It comes, and only then the second call begins: the first one
ends in vain, though the event has come since it began and is long enough ago. -/
theorem late_though_quiet :
    let i : IdleWait := ⟨2000000, ["A.b"], 3000000, 3000000, 0⟩
    ∃ h s earlier, Run 0 h s ∧
      since 0 h = some (i, earlier ++ [.look 0 i 3000000
        (some (.error (IdleWait.lateQuiet 3000000)))]) ∧
      QuietSince i earlier 3000000 := by
  intro i
  obtain ⟨s, run⟩ := run_of_two_calls (.inl rfl)
  refine ⟨_, s, [.look 0 i 0 none, .record 0 ⟨"A", "b", .null⟩, .pass,
      .begin 1 ⟨1000000, ["A.b"], 9000000, 9000000, 1000000⟩,
      .look 1 ⟨1000000, ["A.b"], 9000000, 9000000, 1000000⟩ 1000000 none, .pass], run, rfl, ?_⟩
  intro name hname
  obtain rfl := List.mem_singleton.mp hname
  decide

end TabPilot.Vigils
