/-
  Is every released session destroyed when its grace period is over?

  `release_session` starts one task for all sessions of a client, with one flag. A flag that is set for one
  session stops the task for all of them, so the others stay forever (`resume_strands_other_session`).
  And the task awaits `destroy_session` for one display after the other, which waits for room in the queue
  of every application on it.

  `released_sessions_cared_for`: in every run in which the flag is not shared in this way and no application
  lets its queue run full (`Undisturbed`), a task that has ended has left no session over, and every task
  can be brought to its end.
-/
import RemoteX11.Server.Dismantle

namespace RemoteX11.Server.Waits

open RemoteX11.Lib RemoteX11.Protocol RemoteX11.Sessions
open RemoteX11.Server.Relays (RelayEvent)
open RemoteX11.Sessions.Manager (Unshared GraceInv)

/-- A step of the grace task `g`, or of the calls that it waits for. -/
def Drives (g : Nat) : Action → Prop
  | .base (.mgr (.graceStep i)) => i = g
  | a => Dismantles a

theorem drives_of_dismantles {g : Nat} {a : Action} (h : Dismantles a) : Drives g a := by
  unfold Drives
  split
  · exact h.elim
  · exact h

namespace State

/-- The step of the session manager that an action names. -/
def ofManager : Action → Option Sessions.Action
  | .base (.mgr b) => some b
  | _ => none

/-- The flag of the task `g` is set only as `Unshared` asks, and no queue runs full. -/
def Undisturbed (g : Nat) (s : State) (a : Action) : Prop :=
  (∀ b ∈ ofManager a, Unshared g s.base.mgr b) ∧ s.LeavesRoom a

instance (g : Nat) (s : State) (a : Action) : Decidable (s.Undisturbed g a) :=
  inferInstanceAs (Decidable ((∀ b ∈ ofManager a, Unshared g s.base.mgr b) ∧ s.LeavesRoom a))

variable {s t : State} {a : Action} {g : Nat}

/-- A relay sets no flag, and releases nothing. -/
theorem unshared_of_begins {m : Manager} {b : Sessions.Action} (h : Relays.State.begins b = true) :
    Unshared g m b := by
  cases b <;> first | contradiction | exact Manager.unshared_of_quiet rfl rfl

/-- A step of the relays in which the manager has no part of its own, or an unshared one. -/
theorem unshared_base {b : Relays.Action} (h : s.base.step b = some t.base)
    (hb : ∀ c, b = .mgr c → Unshared g s.base.mgr c) :
    t.base.mgr = s.base.mgr ∨ ∃ c, s.base.mgr.step c = some t.base.mgr ∧ Unshared g s.base.mgr c := by
  rcases Relays.State.step_mgr h with hsame | ⟨c, hstep, rfl | hbegins⟩
  · exact .inl hsame
  · exact .inr ⟨c, hstep, hb c rfl⟩
  · exact .inr ⟨c, hstep, unshared_of_begins hbegins⟩

/-- Nor does what a relay makes of an event. -/
theorem unshared_event {r : Nat} {e : RelayEvent} (h : s.base.step (.event r e) = some t.base) :
    t.base.mgr = s.base.mgr ∨ ∃ c, s.base.mgr.step c = some t.base.mgr ∧ Unshared g s.base.mgr c :=
  unshared_base h fun _ hnone => by cases hnone

/-- **The manager's part of a step** sets the flag of the task only as `Unshared` asks. -/
theorem step_unshared (hroomy : Roomy s) (hu : s.Undisturbed g a) (h : s.step a = some t) :
    t.base.mgr = s.base.mgr ∨ ∃ c, s.base.mgr.step c = some t.base.mgr ∧ Unshared g s.base.mgr c := by
  cases a with
  | base b =>
    simp only [step, baseStep] at h
    split at h
    · obtain ⟨base, hbase, rfl⟩ := Option.map_eq_some_iff.mp h
      refine unshared_base (t := { s with base := base }) hbase ?_
      rintro c rfl
      exact hu.1 c rfl
    · contradiction
  | register i duplex =>
    simp only [step, register] at h
    split at h
    · obtain ⟨base, hbase, rfl⟩ := Option.map_eq_some_iff.mp h
      refine unshared_base (t := { s with base := base }) hbase ?_
      rintro c ⟨⟩
      exact Manager.unshared_of_quiet rfl rfl
    · contradiction
  | frame r e =>
    obtain ⟨relay, -, h⟩ := Option.bind_eq_some_iff.mp h
    unfold frame at h
    split at h
    · obtain ⟨base, hbase, rfl⟩ := Option.map_eq_some_iff.mp h
      exact unshared_event (t := { s with base := base }) hbase
    · contradiction
  | event r =>
    obtain ⟨relay, -, h⟩ := Option.bind_eq_some_iff.mp h
    unfold event at h
    split at h
    · split at h
      · contradiction
      · rename_i e events _
        dsimp only at h
        cases e with
        | connected id | data id len =>
          obtain rfl := Option.some.inj h
          exact .inl rfl
        | congested edge | disconnected id =>
          obtain ⟨base, hbase, rfl⟩ := Option.map_eq_some_iff.mp h
          exact unshared_event (t := { s with base := base }) hbase
    · contradiction
  | deliver r =>
    obtain ⟨relay, -, h⟩ := Option.bind_eq_some_iff.mp h
    unfold deliver at h
    split at h
    · split at h
      · obtain ⟨pump, -, h⟩ := Option.bind_eq_some_iff.mp h
        dsimp only at h
        split at h
        · contradiction
        · split at h
          · obtain ⟨base, hbase, rfl⟩ := Option.map_eq_some_iff.mp h
            exact unshared_base (t := { s with base := base }) hbase fun _ hnone => by cases hnone
          · obtain rfl := Option.some.inj h
            exact .inl rfl
      · contradiction
    · contradiction
  | dropEvents r =>
    obtain ⟨relay, -, h⟩ := Option.bind_eq_some_iff.mp h
    split at h
    · obtain rfl := Option.some.inj h
      exact .inl rfl
    · contradiction
  | lock d =>
    simp only [step, lock] at h
    split at h
    · split at h
      · obtain rfl := Option.some.inj h
        exact .inl rfl
      · contradiction
    · contradiction
  | closeNext =>
    obtain ⟨d, id, rest, hholder⟩ : ∃ d id rest, s.holder = some ⟨d, id :: rest, none⟩ := by
      simp only [step, closeNext] at h
      split at h
      · exact ⟨_, _, _, ‹_›⟩
      · contradiction
    obtain ⟨t', ht', hbase, -⟩ := closeNext_eq hroomy hholder
    obtain rfl := Option.some.inj (ht'.symm.trans h)
    exact .inl (by rw [hbase])
  | sendClose =>
    simp only [step, sendClose] at h
    split at h
    · rename_i d rest p hholder
      exact absurd (hroomy.holder _ hholder).1 fun hnone => by cases hnone
    · contradiction
  | unlock =>
    obtain ⟨d, hholder, hbase, -⟩ := unlock_eq h
    obtain ⟨-, -, ⟨disp, grace, phase⟩, ids, hd, rfl⟩ := hroomy.holder _ hholder
    refine unshared_base hbase ?_
    rintro c ⟨⟩
    exact Manager.unshared_of_quiet (by simp only [Manager.flags, hd]) rfl
  | pump p act =>
    obtain ⟨pump, pump', -, heffect⟩ := step_pump h
    rcases heffect.base with hsame | ⟨b, hb, hpump⟩
    · exact .inl (by rw [hsame])
    · refine unshared_base hb ?_
      rintro c rfl
      cases c <;> first | contradiction | exact Manager.unshared_of_quiet rfl rfl

/-- What holds of the task `g` in an undisturbed run. -/
structure Tended (g : Nat) (s : State) : Prop where
  roomy : Roomy s
  grace : GraceInv g s.base.mgr

theorem step_tended (h : Tended g s) (hu : s.Undisturbed g a) (ht : s.step a = some t) : Tended g t := by
  refine ⟨step_roomy h.roomy hu.2 ht, ?_⟩
  rcases step_unshared h.roomy hu ht with hsame | ⟨c, hstep, hunshared⟩
  · exact hsame ▸ h.grace
  · exact Manager.step_graceInv h.grace hunshared hstep


/-- The task awaits a call. -/
def Awaits (g j : Nat) (all rest : List DisplayNumber) (released : List (DisplayNumber × SessionId))
    (m : Manager) : Prop :=
  GraceInv g m ∧ ∃ task, m.graces[g]? = some task ∧ task.phase = .awaiting j all rest ∧
    task.released = released

/-- Whoever drives the call that a task awaits leaves the task where it is. -/
theorem awaits_step {j : Nat} {all rest : List DisplayNumber}
    {released : List (DisplayNumber × SessionId)} {m m' : Manager} {b : Sessions.Action}
    (h : Awaits g j all rest released m) (hstep : m.step b = some m') (hb : b ≠ .graceStep g)
    (hunshared : ∀ task, m.graces[g]? = some task → task.phase ≠ .sleeping → Unshared g m b) :
    Awaits g j all rest released m' := by
  obtain ⟨hinv, task, hg, hp, hreleased⟩ := h
  obtain ⟨task', hg', hphase⟩ := Manager.step_same_phase hg hstep hb
  obtain ⟨task'', hg'', hsame, -⟩ := Manager.step_keeps_task hg hstep
  obtain rfl := Option.some.inj (hg'.symm.trans hg'')
  exact ⟨Manager.step_graceInv hinv (hunshared task hg (by simp [hp])) hstep, task', hg',
    hphase.trans hp, hsame.trans hreleased⟩

/-- The task takes its next step. -/
theorem graceStep_taken (h : Tended g s) {task : GraceTask} (hg : s.base.mgr.graces[g]? = some task)
    (hended : task.phase ≠ .ended)
    (hawaits : ∀ j all rest, task.phase = .awaiting j all rest →
      ∃ call, s.base.mgr.destroys[j]? = some call ∧ call.phase = .done) :
    ∃ t task', s.step (.base (.mgr (.graceStep g))) = some t ∧ Tended g t ∧
      t.base.mgr.graces[g]? = some task' ∧ task'.released = task.released ∧
      t.base.mgr.stepsLeft task' < s.base.mgr.stepsLeft task := by
  obtain ⟨m, hm⟩ := Manager.graceStep_enabled (g := g) hended hawaits
  obtain ⟨task', hg', hreleased, hless⟩ := Manager.graceStep_less hg hm
  have hstep : s.base.mgr.step (.graceStep g) = some m := by
    simp only [Manager.step, hg, Option.bind_some, hm]
  obtain ⟨t, ht, rfl, -⟩ := managerStep (s := s) (c := .graceStep g) rfl rfl hstep
  have hu : s.Undisturbed g (.base (.mgr (.graceStep g))) := by
    refine ⟨fun b hb => ?_, trivial⟩
    obtain rfl := Option.some.inj hb
    exact Manager.unshared_of_quiet rfl rfl
  exact ⟨t, task', ht, step_tended h hu ht, hg', hreleased, hless⟩

/-- The task comes closer to its end, by its own step or when the call that it awaits has returned. -/
theorem task_progress (h : Tended g s) {task : GraceTask} (hg : s.base.mgr.graces[g]? = some task)
    (hended : task.phase ≠ .ended) :
    ∃ bs t task', (∀ b ∈ bs, Drives g b) ∧ run step s bs = some t ∧ Tended g t ∧
      t.base.mgr.graces[g]? = some task' ∧ task'.released = task.released ∧
      t.base.mgr.stepsLeft task' < s.base.mgr.stepsLeft task := by
  by_cases hcall : ∃ j all rest, task.phase = .awaiting j all rest
  · obtain ⟨j, all, rest, hp⟩ := hcall
    have hj := List.getElem?_eq_getElem (h.grace.awaits task hg j all rest hp)
    -- the call returns, and the task is where it was
    obtain ⟨bs, u, call, hbs, hrun, hroomy, ⟨hinv, task₁, hg₁, hp₁, hreleased₁⟩, hcall, hdone⟩ :=
      call_returns (I := Awaits g j all rest task.released)
        (fun m k m' hI hstep => awaits_step hI hstep nofun fun task hg hp =>
          Manager.unshared_of_destroyStep hg hp k)
        (fun m k m' hI hstep => awaits_step hI hstep nofun fun _ _ _ =>
          Manager.unshared_of_quiet rfl rfl)
        h.roomy ⟨h.grace, task, hg, hp, rfl⟩ hj
    obtain ⟨t, task', ht, htended, hg', hreleased, hless⟩ :=
      graceStep_taken ⟨hroomy, hinv⟩ hg₁ (by simp [hp₁]) (by
        intro j' all' rest' hp'
        obtain ⟨rfl, -, -⟩ := GracePhase.awaiting.inj (hp₁.symm.trans hp')
        exact ⟨call, hcall, hdone⟩)
    refine ⟨bs ++ [.base (.mgr (.graceStep g))], t, task', fun b hb => ?_,
      run_append.mpr ⟨u, hrun, run_cons_eq_some.mpr ⟨t, ht, rfl⟩⟩, htended, hg',
      hreleased.trans hreleased₁, ?_⟩
    · rcases List.mem_append.mp hb with hb | hb
      · exact drives_of_dismantles (hbs b hb)
      · exact List.mem_singleton.mp hb ▸ rfl
    · simpa [Manager.stepsLeft, hp, hp₁] using hless
  · obtain ⟨t, task', ht, htended, hg', hreleased, hless⟩ :=
      graceStep_taken h hg hended fun j all rest hp => absurd ⟨j, all, rest, hp⟩ hcall
    refine ⟨[.base (.mgr (.graceStep g))], t, task', fun b hb => ?_,
      run_cons_eq_some.mpr ⟨t, ht, rfl⟩, htended, hg', hreleased, hless⟩
    exact List.mem_singleton.mp hb ▸ rfl

/-- A task that has ended has left no session over. -/
theorem Tended.caredFor (h : Tended g s) {task : GraceTask} (hg : s.base.mgr.graces[g]? = some task)
    (hp : task.phase = .ended) : ∀ x ∈ task.released, s.base.mgr.CaredFor g x := by
  intro x hx
  refine (h.grace.care task hg x hx).resolve_right ?_
  simp [GraceTask.covers, hp]

/-- **No released session is left over.** In every run in which the flag of the task `g` is set only as
    `Unshared` asks, and in which no payload takes the last place in the queue of an application: when the
    task has ended, each session that it released is gone, was resumed, is being destroyed by another call
    or was released again; and the task can always be driven to its end, by its own steps and those of the
    calls that it waits for. -/
theorem released_sessions_cared_for {high low sockBuf : Nat} {as : List Action} {task : GraceTask}
    (hmeets : Meets step (Undisturbed g) (init high low sockBuf) as)
    (hrun : run step (init high low sockBuf) as = some s)
    (hg : s.base.mgr.graces[g]? = some task) :
    (task.phase = .ended → ∀ x ∈ task.released, s.base.mgr.CaredFor g x) ∧
    ∃ bs t task', (∀ b ∈ bs, Drives g b) ∧ run step s bs = some t ∧
      t.base.mgr.graces[g]? = some task' ∧ task'.phase = .ended ∧
      ∀ x ∈ task.released, t.base.mgr.CaredFor g x := by
  have hinit : Tended g (init high low sockBuf) := ⟨init_roomy high low sockBuf, Manager.init_graceInv⟩
  have htended : Tended g s := run_inv (fun s a t h hu ht => step_tended h hu ht) hinit hmeets hrun
  refine ⟨htended.caredFor hg, ?_⟩
  have hprogress : ∀ u : State, (Tended g u ∧ ∃ task', u.base.mgr.graces[g]? = some task' ∧
        task'.released = task.released) →
      (∃ task', u.base.mgr.graces[g]? = some task' ∧ task'.released = task.released ∧
        task'.phase = .ended) ∨
      ∃ bs t, (∀ b ∈ bs, Drives g b) ∧ run step u bs = some t ∧
        (Tended g t ∧ ∃ task', t.base.mgr.graces[g]? = some task' ∧ task'.released = task.released) ∧
        (t.base.mgr.graces[g]?.map t.base.mgr.stepsLeft).getD 0 <
          (u.base.mgr.graces[g]?.map u.base.mgr.stepsLeft).getD 0 := by
    rintro u ⟨hu, task', hg', hreleased⟩
    by_cases hended : task'.phase = .ended
    · exact .inl ⟨task', hg', hreleased, hended⟩
    · obtain ⟨bs, t, task'', hbs, hrun', ht, hg'', hsame, hless⟩ := task_progress hu hg' hended
      refine .inr ⟨bs, t, hbs, hrun', ⟨ht, task'', hg'', hsame.trans hreleased⟩, ?_⟩
      simpa [hg', hg''] using hless
  obtain ⟨bs, t, hbs, hrun', ⟨ht, -⟩, task', hg', hreleased, hended⟩ :=
    runs_reach _ hprogress ⟨htended, task, hg, rfl⟩
  exact ⟨bs, t, task', hbs, hrun', hg', hended, fun x hx => ht.caredFor hg' hended x (hreleased ▸ hx)⟩

/-- The relay `r` creates the `i`-th session. -/
def creating (r i : Nat) (disp : DisplayNumber) (id : SessionId) : List Action :=
  .frame r (.sessionCreate disp "MIT-MAGIC-COOKIE-1" [UInt8.ofNat i]) ::
    List.replicate 5 (.base (.mgr (.createStep i none id))) ++ List.replicate 3 (.base (.relayStep r))

/-- A client with the sessions `a` on `:3` and `b` on `:4` goes away, and both are released. -/
def releasing : List Action :=
  .base (.connect "alice" true) :: creating 0 0 ⟨3⟩ ⟨"a"⟩ ++ creating 0 1 ⟨4⟩ ⟨"b"⟩ ++
    [.base (.relayEnd 0), .base (.mgr (.release "alice"))]

/-- Both sessions run out, while an application is connected to one of them. -/
def bothExpire : List Action :=
  releasing ++ [.base (.mgr (.accept ⟨3⟩ ⟨7⟩))] ++ List.replicate 2 (.base (.mgr (.appStep 0))) ++
    [.register 0 true, .base (.mgr (.appStep 0))] ++
    List.replicate 3 (.base (.mgr (.graceStep 0))) ++
    List.replicate 6 (.base (.mgr (.destroyStep 0))) ++
    List.replicate 2 (.base (.mgr (.graceStep 0))) ++
    List.replicate 3 (.base (.mgr (.destroyStep 1))) ++ [.lock 1, .closeNext, .unlock] ++
    List.replicate 3 (.base (.mgr (.destroyStep 1))) ++ List.replicate 2 (.base (.mgr (.graceStep 0)))

theorem released_sessions_cared_for_bothExpire :
    ∃ s task, run step (init 2097152 262144 212992) bothExpire = some s ∧
      s.base.mgr.graces[0]? = some task ∧ task.phase = .ended ∧
      task.released = [(⟨4⟩, ⟨"b"⟩), (⟨3⟩, ⟨"a"⟩)] ∧ s.base.mgr.sessions.entries = [] ∧
      ∀ x ∈ task.released, s.base.mgr.CaredFor 0 x := by
  have hlast : ∃ s ∈ run step (init 2097152 262144 212992) bothExpire,
      ∃ task ∈ s.base.mgr.graces[0]?, task.phase = .ended ∧
        task.released = [(⟨4⟩, ⟨"b"⟩), (⟨3⟩, ⟨"a"⟩)] ∧ s.base.mgr.sessions.entries = [] := by
    decide +kernel
  obtain ⟨s, hs, task, hg, hp, hreleased, hsessions⟩ := hlast
  have hmeets : Meets step (Undisturbed 0) (init 2097152 262144 212992) bothExpire := by
    decide +kernel
  exact ⟨s, task, hs, hg, hp, hreleased, hsessions,
    (released_sessions_cared_for hmeets hs hg).1 hp⟩

/-- One of two released sessions is resumed before the timer fires. -/
def oneResumed : List Action :=
  releasing ++ [.base (.connect "bob" true), .frame 1 (.sessionResume ⟨"a"⟩)] ++
    List.replicate 3 (.base (.mgr (.resumeStep 0))) ++ [.base (.mgr (.graceStep 0))]

/-- The task has ended, and the other session is there with no task to come for it. -/
theorem resume_strands_other_session :
    ∃ s task, run step (init 2097152 262144 212992) oneResumed = some s ∧
      s.base.mgr.graces = [task] ∧ task.phase = .ended ∧ (⟨4⟩, ⟨"b"⟩) ∈ task.released ∧
      ¬ s.base.mgr.CaredFor 0 (⟨4⟩, ⟨"b"⟩) ∧ (s.base.mgr.sessions.get ⟨4⟩).isSome = true ∧
      (s.base.mgr.listeners.get ⟨4⟩).isSome = true ∧ (s.base.mgr.xauth.get ⟨4⟩).isSome = true := by
  have hlast : ∃ s ∈ run step (init 2097152 262144 212992) oneResumed,
      ∃ task ∈ s.base.mgr.graces[0]?, s.base.mgr.graces = [task] ∧ task.phase = .ended ∧
        (⟨4⟩, ⟨"b"⟩) ∈ task.released ∧ ¬ s.base.mgr.CaredFor 0 (⟨4⟩, ⟨"b"⟩) ∧
        (s.base.mgr.sessions.get ⟨4⟩).isSome = true ∧ (s.base.mgr.listeners.get ⟨4⟩).isSome = true ∧
        (s.base.mgr.xauth.get ⟨4⟩).isSome = true := by decide +kernel
  obtain ⟨s, hs, task, -, hrest⟩ := hlast
  exact ⟨s, task, hs, hrest⟩

end State

end RemoteX11.Server.Waits
