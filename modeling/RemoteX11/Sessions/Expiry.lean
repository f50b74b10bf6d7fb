/-
  Can a grace task destroy a session that has been resumed?

  The task looks at its flag and at the owners once, and then destroys its snapshot display by display,
  with many awaits between. A resume that finds its session in that time returns `Ok`, and the session is
  destroyed afterwards (`resume_too_late_for_grace`).

  `doomed` is what a task is about to destroy. As long as no resume finds the session of a doomed display,
  and no snapshot takes a session that was resumed since the release, no task destroys a session that was
  resumed after its release (`resumed_sessions_survive`).
-/
import RemoteX11.Sessions.Grace

namespace RemoteX11.Sessions

open RemoteX11.Lib RemoteX11.Protocol

namespace Manager

/-- The displays that a task will destroy: what is left of its snapshot, and the display of the call that
    it awaits. -/
def doomed (m : Manager) (task : GraceTask) : List DisplayNumber :=
  match task.phase with
  | .destroying _ rest => rest
  | .awaiting j _ rest =>
    (m.destroys[j]?.toList.filter fun call => call.phase ≠ .done).map DestroyCall.display ++ rest
  | _ => []

/-- A task takes its snapshot while its client owns no session that was resumed since the release. -/
def SnapshotInTime (m : Manager) : Action → Prop
  | .graceStep g => ∀ task ∈ m.graces[g]?, task.phase = .checked →
      ∀ x ∈ m.ownedBy task.client, x.2 ∉ task.resumed
  | _ => True

instance (m : Manager) : (a : Action) → Decidable (SnapshotInTime m a)
  | .graceStep g => inferInstanceAs (Decidable (∀ task ∈ m.graces[g]?, _ → ∀ x ∈ _, _))
  | .create .. | .createAuto .. | .createStep .. | .resume .. | .resumeStep .. | .destroy ..
  | .destroyStep .. | .release .. | .accept .. | .appStep .. | .appEnd .. | .unregister ..
  | .unregisterStep .. | .unregisterRelay .. => isTrue trivial

/-- No resume finds a session that a task is about to destroy. -/
def InTime (m : Manager) (a : Action) : Prop :=
  (∀ s ∈ m.finds a, ∀ task ∈ m.graces, s.display ∉ m.doomed task) ∧ SnapshotInTime m a

instance (m : Manager) (a : Action) : Decidable (InTime m a) :=
  inferInstanceAs (Decidable ((∀ s ∈ m.finds a, ∀ task ∈ m.graces, _) ∧ _))

/-- No session was removed by the task of a release after a resume had found it. -/
def ResumedSurvive (m : Manager) : Prop :=
  ∀ x ∈ m.expired, ∀ task, m.graces[x.1]? = some task → x.2 ∉ task.resumed

structure ExpiryInv (m : Manager) : Prop where
  ids : IdsInv m
  resumed : ∀ (g : Nat) task, m.graces[g]? = some task → ∀ id ∈ task.resumed, id ∈ m.issued
  awaits : ∀ (g : Nat) task, m.graces[g]? = some task → ∀ j all rest,
    task.phase = .awaiting j all rest → j < m.destroys.length
  awaited : ∀ (j : Nat) call g, m.destroys[j]? = some call → call.grace = some g →
    call.phase ≠ .done → ∃ task all rest, m.graces[g]? = some task ∧
      task.phase = .awaiting j all rest
  doomed : ∀ (g : Nat) task, m.graces[g]? = some task → ∀ disp ∈ m.doomed task, ∀ s,
    m.sessions.get disp = some s → s.id ∉ task.resumed
  gone : ∀ x ∈ m.expired, x.2 ∈ m.issued ∧ ∀ disp, m.Gone (disp, x.2)
  expired : ResumedSurvive m

variable {m t : Manager} {a : Action} {i g : Nat}

/-! ## One step -/

theorem finds_session {s : Session} (h : m.finds a = some s) : ∃ disp, m.sessions.get disp = some s := by
  unfold finds at h
  split at h
  · split at h
    · obtain ⟨⟨disp, s'⟩, hmem, rfl⟩ := List.mem_map.mp (List.mem_of_find?_eq_some h)
      exact ⟨disp, Table.mem_entries.mp hmem⟩
    · contradiction
  · contradiction

/-- What is on the list of resumed sessions was on it, or is the session that a resume has found. -/
theorem step_resumed {task' : GraceTask} {id : SessionId} (ht : m.step a = some t)
    (hg' : t.graces[g]? = some task') (hid : id ∈ task'.resumed) :
    ∃ task, m.graces[g]? = some task ∧
      (id ∈ task.resumed ∨ ∃ s, m.finds a = some s ∧ id = s.id) := by
  cases step_task ht hg' with
  | own task hg _ hstep =>
    obtain ⟨hlt, -⟩ := List.getElem?_eq_some_iff.mp hg
    obtain ⟨phase, hgraces, -⟩ := graceStep_graces hstep
    rw [hgraces, List.getElem?_set_self hlt] at hg'
    obtain rfl := Option.some.inj hg'
    exact ⟨task, hg, .inl hid⟩
  | other task hg _ _ _ _ hresumed _ =>
    refine ⟨task, hg, ?_⟩
    rcases hresumed with hsame | ⟨s, hs, hmore⟩
    · exact .inl (hsame ▸ hid)
    · rw [hmore] at hid
      exact (List.mem_cons.mp hid).symm.imp_right fun heq => ⟨s, hs, heq⟩
  | new client ha hnew htask =>
    subst htask
    exact absurd hid List.not_mem_nil

theorem mem_doomed_awaiting {task : GraceTask} {j : Nat} {all rest : List DisplayNumber}
    {disp : DisplayNumber} (hp : task.phase = .awaiting j all rest) : disp ∈ m.doomed task ↔
      (∃ call, m.destroys[j]? = some call ∧ call.phase ≠ .done ∧ call.display = disp) ∨ disp ∈ rest := by
  simp only [Manager.doomed, hp, List.mem_append, List.mem_map, List.mem_filter, Option.mem_toList,
    decide_eq_true_eq, and_assoc]

/-- A call is where it was, perhaps some sections further. -/
theorem call_before {j : Nat} {call' : DestroyCall} (ht : m.step a = some t)
    (hlt : j < m.destroys.length) (hj : t.destroys[j]? = some call') :
    ∃ call, m.destroys[j]? = some call ∧ call'.display = call.display ∧ call'.grace = call.grace ∧
      (call'.phase ≠ .done → call.phase ≠ .done) := by
  cases step_destroys ht with
  | keep hdestroys => exact ⟨call', hdestroys ▸ hj, rfl, rfl, fun h => h⟩
  | call disp grace hdestroys =>
    rw [hdestroys, List.getElem?_append_left hlt] at hj
    exact ⟨call', hj, rfl, rfl, fun h => h⟩
  | own i call _ hi hstep =>
    obtain ⟨phase, hdestroys, hless, -⟩ := destroyStep_destroys hstep
    rw [hdestroys] at hj
    obtain ⟨rfl, rfl⟩ | ⟨-, hj⟩ := getElem?_of_set hj
    · refine ⟨call, hi, rfl, rfl, fun _ hdone => ?_⟩
      rw [hdone] at hless
      exact absurd hless (Nat.not_lt_zero _)
    · exact ⟨call', hj, rfl, rfl, fun h => h⟩

/-- A task that does not move has nothing new to destroy. -/
theorem doomed_of_same_phase {task task' : GraceTask} (h : ExpiryInv m) (ht : m.step a = some t)
    (hg : m.graces[g]? = some task) (hphase : task'.phase = task.phase) :
    ∀ disp ∈ t.doomed task', disp ∈ m.doomed task := by
  intro disp hdisp
  cases hp : task.phase with
  | awaiting j all rest =>
    rw [mem_doomed_awaiting (hphase.trans hp)] at hdisp
    rw [mem_doomed_awaiting hp]
    refine hdisp.imp_left fun ⟨call', hj, hdone, hd⟩ => ?_
    obtain ⟨call, hj, hdisplay, -, hrunning⟩ := call_before ht (h.awaits g task hg j all rest hp) hj
    exact ⟨call, hj, hrunning hdone, hdisplay ▸ hd⟩
  | sleeping | checked | destroying | ended =>
    simpa only [Manager.doomed, hphase, hp] using hdisp

/-- A step of the task itself: only the snapshot adds to what it will destroy. -/
theorem doomed_of_own {task : GraceTask} (h : ExpiryInv m) (hin : InTime m (.graceStep g))
    (hg : m.graces[g]? = some task) (ht : m.graceStep g task = some t) {task' : GraceTask}
    (hg' : t.graces[g]? = some task') :
    ∀ disp ∈ t.doomed task', ∀ s, m.sessions.get disp = some s → s.id ∉ task.resumed := by
  obtain ⟨hlt, -⟩ := List.getElem?_eq_some_iff.mp hg
  have hmoved : ∀ phase, t.graces = m.graces.set g { task with phase := phase } →
      task' = { task with phase := phase } := by
    intro phase hgraces
    rw [hgraces, List.getElem?_set_self hlt] at hg'
    exact (Option.some.inj hg').symm
  intro disp hdisp
  cases graceStep_cases ht with
  | cancelled | fire | finish =>
    obtain rfl := hmoved _ rfl
    exact absurd hdisp List.not_mem_nil
  | snapshot hp howned =>
    obtain rfl := hmoved _ rfl
    intro s hs
    have hmem : disp ∈ (m.sessions.entries.filter fun e => e.2.clientId = task.client).map Prod.fst :=
      howned ▸ hdisp
    obtain ⟨⟨disp', s'⟩, hentry, rfl⟩ := List.mem_map.mp hmem
    have hs' := Table.mem_entries.mp (List.mem_filter.mp hentry).1
    obtain rfl := Option.some.inj (hs.symm.trans hs')
    exact hin.2 task hg hp (disp', s.id) (List.mem_map.mpr ⟨(disp', s), hentry, rfl⟩)
  | @destroy all rest d d' hp hnew =>
    obtain rfl := hmoved _ rfl
    refine h.doomed g task hg disp ?_
    rw [mem_doomed_awaiting rfl] at hdisp
    simp only [Manager.doomed, hp]
    rcases hdisp with ⟨call, hj, -, rfl⟩ | hrest
    · change (m.destroys ++ _)[m.destroys.length]? = some call at hj
      rw [List.getElem?_concat_length] at hj
      obtain rfl := Option.some.inj hj
      rw [DisplayNumber.eq_of_new_raw hnew]
      exact List.mem_cons_self
    · exact List.mem_cons_of_mem _ hrest
  | skip hp =>
    obtain rfl := hmoved _ rfl
    refine h.doomed g task hg disp ?_
    simp only [Manager.doomed, hp]
    exact List.mem_cons_of_mem _ hdisp
  | awaited hp =>
    obtain rfl := hmoved _ rfl
    refine h.doomed g task hg disp ?_
    rw [mem_doomed_awaiting hp]
    exact .inr hdisp

/-- No session that a task is about to destroy has been resumed since its release. -/
theorem step_doomed {task' : GraceTask} (h : ExpiryInv m) (hin : InTime m a) (ht : m.step a = some t)
    (hg' : t.graces[g]? = some task') :
    ∀ disp ∈ t.doomed task', ∀ s, t.sessions.get disp = some s → s.id ∉ task'.resumed := by
  intro disp hdisp s hs hresumed
  obtain ⟨task, hg, hbefore⟩ := step_resumed ht hg' hresumed
  rcases session_before h.ids ht hs with ⟨hfresh, -⟩ | ⟨s', hs', hid, -, -⟩
  · rcases hbefore with hold | ⟨s₀, hfinds, heq⟩
    · exact hfresh (h.resumed g task hg _ hold)
    · obtain ⟨disp₀, hs₀⟩ := finds_session hfinds
      exact hfresh (heq ▸ h.ids.issued disp₀ s₀ hs₀)
  rw [← hid] at hbefore
  by_cases hown : a = .graceStep g
  · subst hown
    obtain ⟨task₀, hg₀, hstep⟩ := Option.bind_eq_some_iff.mp ht
    obtain rfl := Option.some.inj (hg.symm.trans hg₀)
    refine doomed_of_own h hin hg hstep hg' disp hdisp s' hs' (hbefore.resolve_right ?_)
    exact fun ⟨_, hfinds, _⟩ => nomatch hfinds
  obtain ⟨task'', hg'', hphase⟩ := step_same_phase hg ht hown
  obtain rfl := Option.some.inj (hg'.symm.trans hg'')
  have hdoomed := doomed_of_same_phase h ht hg hphase disp hdisp
  rcases hbefore with hold | ⟨s₀, hfinds, heq⟩
  · exact h.doomed g task hg disp hdoomed s' hs' hold
  · -- the session that the resume finds is not that of a doomed display
    obtain ⟨disp₀, hs₀⟩ := finds_session hfinds
    have hdisp₀ := h.ids.unique disp disp₀ s' s₀ hs' hs₀ heq
    refine hin.1 s₀ hfinds task (List.mem_of_getElem? hg) ?_
    rw [h.ids.keys disp₀ s₀ hs₀, ← hdisp₀]
    exact hdoomed

/-- A call of a task is awaited until it is done. -/
theorem step_awaited {j : Nat} {call' : DestroyCall} (h : ExpiryInv m) (ht : m.step a = some t)
    (hj : t.destroys[j]? = some call') (hgrace : call'.grace = some g) (hdone : call'.phase ≠ .done) :
    ∃ task all rest, t.graces[g]? = some task ∧ task.phase = .awaiting j all rest := by
  by_cases hlt : j < m.destroys.length
  · obtain ⟨call, hold, -, hsame, hrunning⟩ := call_before ht hlt hj
    obtain ⟨task, all, rest, hg, hp⟩ := h.awaited j call g hold (hsame ▸ hgrace) (hrunning hdone)
    by_cases hown : a = .graceStep g
    · subst hown
      obtain ⟨task₀, hg₀, hstep⟩ := Option.bind_eq_some_iff.mp ht
      obtain rfl := Option.some.inj (hg.symm.trans hg₀)
      cases graceStep_cases hstep with
      | awaited hp' hj' hdone' =>
        obtain ⟨rfl, -, -⟩ := GracePhase.awaiting.inj (hp.symm.trans hp')
        obtain rfl := Option.some.inj (hold.symm.trans hj')
        exact absurd hdone' (hrunning hdone)
      | cancelled hp' | fire hp' | snapshot hp' | finish hp' | destroy hp' | skip hp' =>
        rw [hp] at hp'
        contradiction
    · obtain ⟨task', hg', hphase⟩ := step_same_phase hg ht hown
      exact ⟨task', all, rest, hg', hphase.trans hp⟩
  · cases step_destroys ht with
    | keep hdestroys =>
      rw [hdestroys, List.getElem?_eq_none (Nat.not_lt.mp hlt)] at hj
      contradiction
    | call disp grace hdestroys hawaiting =>
      rw [hdestroys, List.getElem?_append_right (Nat.not_lt.mp hlt)] at hj
      obtain ⟨hone, -⟩ := List.getElem?_eq_some_iff.mp hj
      rw [List.length_singleton] at hone
      obtain rfl := List.mem_singleton.mp (List.mem_of_getElem? hj)
      obtain rfl : j = m.destroys.length := by omega
      exact hawaiting g hgrace
    | own i call _ hi hstep =>
      obtain ⟨phase, hdestroys, -⟩ := destroyStep_destroys hstep
      rw [hdestroys, List.getElem?_eq_none (by simpa using hlt)] at hj
      contradiction

/-- What a step adds to the removed sessions was on a doomed display. -/
theorem step_expired {x : Nat × SessionId} (h : ExpiryInv m) (ht : m.step a = some t)
    (hx : x ∈ t.expired) : x ∈ m.expired ∨
      (x.2 ∈ m.issued ∧ (∀ disp, t.Gone (disp, x.2)) ∧
        ∀ task, t.graces[x.1]? = some task → x.2 ∉ task.resumed) := by
  cases a with
  | destroyStep i =>
    obtain ⟨call, hi, hstep⟩ := Option.bind_eq_some_iff.mp ht
    cases destroyStep_cases hstep with
    | removeSession hp =>
      refine (List.mem_append.mp hx).imp_right fun hnew => ?_
      unfold expiredBy at hnew
      split at hnew
      · rename_i g s hgrace hs
        obtain rfl := List.mem_singleton.mp hnew
        refine ⟨h.ids.issued _ s hs, fun disp s' hs' hid => ?_, fun task hg => ?_⟩
        · change (m.sessions.remove call.display).get disp = some s' at hs'
          have hdisp := h.ids.unique disp call.display s' s (Table.get_of_get_remove hs') hs hid
          rw [hdisp, Table.get_remove_self] at hs'
          contradiction
        · obtain ⟨task', all, rest, hg', hawaits⟩ :=
            h.awaited i call g hi hgrace (by simp [hp])
          obtain rfl := Option.some.inj (hg.symm.trans hg')
          refine h.doomed g task hg call.display ?_ s hs
          rw [mem_doomed_awaiting hawaits]
          exact .inl ⟨call, hi, by simp [hp], rfl⟩
      · exact absurd hnew List.not_mem_nil
    | unbind =>
      rw [unbindDisplay_frame] at hx
      exact .inl hx
    | _ => exact .inl hx
  | createStep i failure id =>
    obtain ⟨call, -, hstep⟩ := Option.bind_eq_some_iff.mp ht
    rw [createStep_frame hstep] at hx
    exact .inl hx
  | resumeStep i =>
    obtain ⟨call, -, hstep⟩ := Option.bind_eq_some_iff.mp ht
    rw [resumeStep_frame hstep] at hx
    exact .inl hx
  | _ => exact .inl ((step_frame ht).expired rfl ▸ hx)

theorem step_expiryInv (h : ExpiryInv m) (hin : InTime m a) (ht : m.step a = some t) :
    ExpiryInv t where
  ids := step_idsInv h.ids ht
  resumed g task' hg' id hid := by
    refine step_issued ht ?_
    obtain ⟨task, hg, hold | ⟨s, hfinds, rfl⟩⟩ := step_resumed ht hg' hid
    · exact h.resumed g task hg id hold
    · obtain ⟨disp, hs⟩ := finds_session hfinds
      exact h.ids.issued disp s hs
  awaits g task' hg' j all rest hp :=
    step_awaits (h.awaits g) ht hg' hp
  awaited j call' g hj hgrace hdone := step_awaited h ht hj hgrace hdone
  doomed g task' hg' := step_doomed h hin ht hg'
  gone x hx := by
    rcases step_expired h ht hx with hold | ⟨hissued, hgone, -⟩
    · obtain ⟨hissued, hgone⟩ := h.gone x hold
      exact ⟨step_issued ht hissued, fun disp => (hgone disp).step h.ids hissued ht⟩
    · exact ⟨step_issued ht hissued, hgone⟩
  expired x hx task' hg' hid := by
    rcases step_expired h ht hx with hold | ⟨-, -, hnot⟩
    · obtain ⟨task, hg, hold' | ⟨s, hfinds, heq⟩⟩ := step_resumed ht hg' hid
      · exact h.expired x hold task hg hold'
      · -- a session that is gone is not found
        obtain ⟨disp, hs⟩ := finds_session hfinds
        exact (h.gone x hold).2 disp s hs heq.symm
    · exact hnot task' hg' hid

theorem init_expiryInv : ExpiryInv init where
  ids := init_idsInv
  resumed _ _ h := nomatch h
  awaits _ _ h := nomatch h
  awaited _ _ _ h := nomatch h
  doomed _ _ h := nomatch h
  gone _ h := nomatch h
  expired _ h := nomatch h

/-! ## Every run -/

/-- **A resumed session survives the grace period that it was resumed in.** In every run in which resumes
    and snapshots come in time, no session was removed by the task of a release after a resume had found
    it. -/
theorem resumed_sessions_survive {as : List Action} (hmeets : Meets step InTime init as)
    (hrun : run step init as = some m) : ResumedSurvive m := by
  have hinv : ExpiryInv m :=
    run_inv (fun m a t h hin ht => step_expiryInv h hin ht) init_expiryInv hmeets hrun
  exact hinv.expired

/-- Two clients are gone. One session is resumed in time, the other expires. -/
def resumedInTime : List Action :=
  createCall 0 ⟨3⟩ ⟨"a"⟩ "alice" ++ createCall 1 ⟨4⟩ ⟨"b"⟩ "carol" ++
    [.release "alice", .release "carol", .graceStep 0, .graceStep 0, .resume ⟨"b"⟩ "dave",
      .resumeStep 0, .resumeStep 0, .resumeStep 0, .graceStep 0] ++ List.replicate 6 (.destroyStep 0)

theorem resumed_sessions_survive_inTime : ∃ m, run step init resumedInTime = some m ∧
    m.expired = [(0, ⟨"a"⟩)] ∧ m.graces.map GraceTask.resumed = [[⟨"b"⟩], [⟨"b"⟩]] ∧
    ResumedSurvive m := by
  have hlast : ∃ m ∈ run step init resumedInTime, m.expired = [(0, ⟨"a"⟩)] ∧
      m.graces.map GraceTask.resumed = [[⟨"b"⟩], [⟨"b"⟩]] := by decide +kernel
  obtain ⟨m, hm, hexpired, hresumed⟩ := hlast
  have hmeets : Meets step InTime init resumedInTime := by decide +kernel
  exact ⟨m, hm, hexpired, hresumed, resumed_sessions_survive hmeets hm⟩

/-- The timer fires and the snapshot is taken; then the session is resumed. -/
def resumedAtDeadline : List Action :=
  createCall 0 ⟨3⟩ ⟨"a"⟩ "alice" ++ [.release "alice", .graceStep 0, .graceStep 0,
    .resume ⟨"a"⟩ "bob", .resumeStep 0, .resumeStep 0]

/-- The resume has returned `Ok` for a session that is there; when the task goes on, it is removed. -/
theorem resume_too_late_for_grace :
    ∃ m t, run step init resumedAtDeadline = some m ∧
      (∃ s, m.resumes.map ResumeCall.phase = [.returnedOk s] ∧ m.sessions.get ⟨3⟩ = some s ∧
        s.clientId = "bob") ∧
      run step m (.graceStep 0 :: List.replicate 6 (.destroyStep 0)) = some t ∧
      t.sessions.get ⟨3⟩ = none ∧ t.expired = [(0, ⟨"a"⟩)] ∧ ¬ ResumedSurvive t := by
  have hlast : ∃ m ∈ run step init resumedAtDeadline,
      (∃ s ∈ m.sessions.get ⟨3⟩, m.resumes.map ResumeCall.phase = [.returnedOk s] ∧
        s.clientId = "bob") ∧
      ∃ t ∈ run step m (.graceStep 0 :: List.replicate 6 (.destroyStep 0)),
        t.sessions.get ⟨3⟩ = none ∧ t.expired = [(0, ⟨"a"⟩)] ∧
        ∃ task ∈ t.graces[0]?, ⟨"a"⟩ ∈ task.resumed := by decide +kernel
  obtain ⟨m, hm, ⟨s, hs, hp, howner⟩, t, ht, hnone, hexpired, task, hg, hresumed⟩ := hlast
  refine ⟨m, t, hm, ⟨s, hp, hs, howner⟩, ht, hnone, hexpired, fun hsurvive => ?_⟩
  exact hsurvive (0, ⟨"a"⟩) (hexpired ▸ List.mem_singleton_self _) task hg hresumed

end Manager

end RemoteX11.Sessions
