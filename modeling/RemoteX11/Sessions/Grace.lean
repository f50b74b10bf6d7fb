/-
  What becomes of a released session?

  `release_session` starts one task for all sessions of a client, with one flag in `grace_tasks` for
  every display of them. The task sleeps, looks at the flag, takes a snapshot of what the client still
  owns and destroys it display by display. `try_resume_session` changes the owner in one section and
  sets the flag in another; `destroy_session` sets it too.

  Two things can go wrong. A flag that is set for one session stops the task for all of them, so the
  others stay forever; and a session that is resumed after the snapshot is destroyed all the same. What a
  step does to the sessions and to a task is said once, by `step_sessions` and `step_task`; both parts rest
  on that. What the task awaits while it destroys is not said here: a `destroy_session` call takes no step
  as long as it has to wait.
-/
import RemoteX11.Sessions.Manager
import RemoteX11.Lib.Calls

namespace RemoteX11.Sessions

open RemoteX11.Lib RemoteX11.Protocol

/-- The task is still to come to the session of a display: it sleeps with its flag unset, it has yet to take
    its snapshot, or the display is left of it. -/
def GraceTask.covers (task : GraceTask) (disp : DisplayNumber) : Prop :=
  match task.phase with
  | .sleeping => task.cancelled = false
  | .checked => True
  | .destroying _ rest => disp ∈ rest
  | .awaiting _ _ rest => disp ∈ rest
  | .ended => False

namespace Manager

/-- The sessions of a client, as `release_session` collects them. -/
def ownedBy (m : Manager) (client : String) : List (DisplayNumber × SessionId) :=
  (m.sessions.entries.filter fun e => e.2.clientId = client).map fun e => (e.1, e.2.id)

/-- The sessions that an action releases. -/
def releases (m : Manager) : Action → List (DisplayNumber × SessionId)
  | .release client => m.ownedBy client
  | _ => []

/-- The session that a resume finds and takes over. -/
def finds (m : Manager) : Action → Option Session
  | .resumeStep i =>
    match m.resumes[i]? with
    | some ⟨id, _, .finding⟩ => (m.sessions.entries.map Prod.snd).find? fun session => session.id = id
    | _ => none
  | _ => none

/-- The tasks whose flag an action sets. -/
def flags (m : Manager) : Action → List Nat
  | .resumeStep i =>
    match m.resumes[i]? with
    | some ⟨_, _, .cancelling session⟩ => (m.graceTasks.get session.display).toList
    | _ => []
  | .destroyStep i =>
    match m.destroys[i]? with
    | some ⟨disp, _, .cancelGrace⟩ => (m.graceTasks.get disp).toList
    | _ => []
  | .release client => (m.ownedBy client).filterMap fun x => m.graceTasks.get x.1
  | _ => []

variable {m t : Manager} {a : Action} {i g : Nat} {x : DisplayNumber × SessionId}

/-! ## What a step does to the sessions -/

/-- What any step can do to the table of sessions, and by which call. -/
inductive SessionsStep (m t : Manager) (a : Action) : Prop
  | keep (hsessions : t.sessions = m.sessions) (hissued : t.issued = m.issued)
  | insert (s : Session) (k : Nat) (call : CreateCall) (hk : m.creates[k]? = some call)
      (hp : call.phase = .inserting) (hclient : s.clientId = call.clientId)
      (hk' : t.creates[k]? = some { call with phase := .returnedOk s })
      (hfree : m.sessions.get s.display = none) (hfresh : s.id ∉ m.issued)
      (hsessions : t.sessions = m.sessions.put s.display s) (hissued : t.issued = s.id :: m.issued)
  | resume (disp : DisplayNumber) (s : Session) (k : Nat) (call : ResumeCall)
      (hk : m.resumes[k]? = some call) (hp : call.phase = .finding)
      (hk' : t.resumes[k]? =
        some { call with phase := .cancelling { s with clientId := call.clientId } })
      (hfinds : m.finds a = some s) (hget : m.sessions.get disp = some s)
      (hsessions : t.sessions = m.sessions.put s.display { s with clientId := call.clientId })
      (hissued : t.issued = m.issued) (hgraces : t.graces = m.graces.map (GraceTask.noteResumed s.id))
  | remove (disp : DisplayNumber) (hsessions : t.sessions = m.sessions.remove disp)
      (hissued : t.issued = m.issued)

theorem finds_of_finding {call : ResumeCall} (hi : m.resumes[i]? = some call)
    (hp : call.phase = .finding) : m.finds (.resumeStep i) =
      (m.sessions.entries.map Prod.snd).find? fun session => session.id = call.id := by
  obtain ⟨id, client, phase⟩ := call
  subst hp
  simp only [finds, hi]

theorem step_sessions (ht : m.step a = some t) : SessionsStep m t a := by
  cases a with
  | createStep i failure id =>
    obtain ⟨call, hi, ht⟩ := Option.bind_eq_some_iff.mp ht
    obtain ⟨hlt, -⟩ := List.getElem?_eq_some_iff.mp hi
    cases createStep_cases ht with
    | insert hp hsession hfresh =>
      exact .insert ⟨id, call.display, _, _, call.clientId⟩ i call hi hp rfl
        (List.getElem?_set_self hlt) hsession hfresh rfl rfl
    | unwind | unbindInUse =>
      rw [unbindDisplay_frame]
      exact .keep rfl rfl
    | _ => exact .keep rfl rfl
  | resumeStep i =>
    obtain ⟨call, hi, ht⟩ := Option.bind_eq_some_iff.mp ht
    obtain ⟨hlt, -⟩ := List.getElem?_eq_some_iff.mp hi
    cases resumeStep_cases ht with
    | @find s hp hfind =>
      obtain ⟨⟨disp, s'⟩, hmem, rfl⟩ := List.mem_map.mp (List.mem_of_find?_eq_some hfind)
      exact .resume disp s' i call hi hp (List.getElem?_set_self hlt)
        ((finds_of_finding hi hp).trans hfind) (Table.mem_entries.mp hmem) rfl rfl rfl
    | _ => exact .keep rfl rfl
  | destroyStep i =>
    obtain ⟨call, -, ht⟩ := Option.bind_eq_some_iff.mp ht
    cases destroyStep_cases ht with
    | removeSession => exact .remove call.display rfl rfl
    | unbind =>
      rw [unbindDisplay_frame]
      exact .keep rfl rfl
    | _ => exact .keep rfl rfl
  | _ => exact .keep ((step_frame ht).sessions rfl) ((step_frame ht).issued rfl)

/-- Sessions stand under their display, and a uuid is drawn for one session only. -/
structure IdsInv (m : Manager) : Prop where
  keys : ∀ disp s, m.sessions.get disp = some s → s.display = disp
  issued : ∀ disp s, m.sessions.get disp = some s → s.id ∈ m.issued
  unique : ∀ disp disp' s s', m.sessions.get disp = some s → m.sessions.get disp' = some s' →
    s.id = s'.id → disp = disp'

theorem step_issued (ht : m.step a = some t) {id : SessionId} (h : id ∈ m.issued) : id ∈ t.issued := by
  cases step_sessions ht with
  | keep _ hissued => exact hissued ▸ h
  | insert s k call hk hp hclient hk' hfree hfresh hsessions hissued =>
    rw [hissued]
    exact List.mem_cons_of_mem _ h
  | resume disp s k call hk hp hk' hfinds hget hsessions hissued => exact hissued ▸ h
  | remove disp hsessions hissued => exact hissued ▸ h

/-- A session of the next state is the new one, or was there before, perhaps with another owner. -/
theorem session_before (h : IdsInv m) (ht : m.step a = some t) {disp : DisplayNumber} {s : Session}
    (hs : t.sessions.get disp = some s) :
    (s.id ∉ m.issued ∧ s.id ∈ t.issued ∧ s.display = disp ∧
      ∀ disp' ≠ disp, t.sessions.get disp' = m.sessions.get disp') ∨
    ∃ s', m.sessions.get disp = some s' ∧ s'.id = s.id ∧ s'.display = s.display ∧
      (s'.clientId = s.clientId ∨
        m.finds a = some s' ∧ t.graces = m.graces.map (GraceTask.noteResumed s'.id)) := by
  cases step_sessions ht with
  | keep hsessions =>
    rw [hsessions] at hs
    exact .inr ⟨s, hs, rfl, rfl, .inl rfl⟩
  | insert s₀ k call hk hp hclient hk' hfree hfresh hsessions hissued =>
    rw [hsessions, Table.get_put] at hs
    split at hs
    · rename_i hd
      obtain rfl := Option.some.inj hs
      refine .inl ⟨hfresh, hissued ▸ List.mem_cons_self, hd.symm, fun disp' hne => ?_⟩
      rw [hsessions, Table.get_put_of_ne _ _ (hd ▸ hne)]
    · exact .inr ⟨s, hs, rfl, rfl, .inl rfl⟩
  | resume disp₀ s₀ k call hk hp hk' hfinds hget hsessions _ hgraces =>
    rw [hsessions, Table.get_put] at hs
    split at hs
    · rename_i hd
      obtain rfl := Option.some.inj hs
      have hdisp : disp = disp₀ := hd.trans (h.keys disp₀ s₀ hget)
      exact .inr ⟨s₀, hdisp ▸ hget, rfl, rfl, .inr ⟨hfinds, hgraces⟩⟩
    · exact .inr ⟨s, hs, rfl, rfl, .inl rfl⟩
  | remove disp₀ hsessions =>
    rw [hsessions] at hs
    exact .inr ⟨s, Table.get_of_get_remove hs, rfl, rfl, .inl rfl⟩

theorem step_idsInv (h : IdsInv m) (ht : m.step a = some t) : IdsInv t where
  keys disp s hs := by
    rcases session_before h ht hs with ⟨-, -, hd, -⟩ | ⟨s', hs', -, hd, -⟩
    · exact hd
    · exact hd ▸ h.keys disp s' hs'
  issued disp s hs := by
    rcases session_before h ht hs with ⟨-, hid, -, -⟩ | ⟨s', hs', hid, -, -⟩
    · exact hid
    · exact hid ▸ step_issued ht (h.issued disp s' hs')
  unique disp disp' s s' hs hs' hid := by
    by_contra hne
    rcases session_before h ht hs with ⟨hnew, -, -, hrest⟩ | ⟨s₀, hs₀, hid₀, -, -⟩
    · rw [hrest disp' (Ne.symm hne)] at hs'
      exact hnew (hid ▸ h.issued disp' s' hs')
    · rcases session_before h ht hs' with ⟨hnew, -, -, -⟩ | ⟨s₁, hs₁, hid₁, -, -⟩
      · exact hnew (hid ▸ hid₀ ▸ h.issued disp s₀ hs₀)
      · exact hne (h.unique disp disp' s₀ s₁ hs₀ hs₁ (hid₀.trans (hid.trans hid₁.symm)))

theorem init_idsInv : IdsInv init where
  keys _ _ h := nomatch h
  issued _ _ h := nomatch h
  unique _ _ _ _ h := nomatch h

/-- The session is not there (any more). -/
def Gone (m : Manager) (x : DisplayNumber × SessionId) : Prop :=
  ∀ s ∈ m.sessions.get x.1, s.id ≠ x.2

instance (m : Manager) (x : DisplayNumber × SessionId) : Decidable (m.Gone x) :=
  inferInstanceAs (Decidable (∀ s ∈ m.sessions.get x.1, s.id ≠ x.2))

/-- A session does not come back. -/
theorem Gone.step (hgone : m.Gone x) (h : IdsInv m) (hx : x.2 ∈ m.issued) (ht : m.step a = some t) :
    t.Gone x := by
  intro s hs hid
  rcases session_before h ht hs with ⟨hnew, -, -, -⟩ | ⟨s', hs', hid', -, -⟩
  · exact hnew (hid ▸ hx)
  · exact hgone s' hs' (hid'.trans hid)

/-! ## What a step does to the tasks -/

/-- The flags of the tasks `gs` are set. -/
def cancelAll (gs : List Nat) (tasks : List GraceTask) : List GraceTask :=
  gs.foldl (fun tasks k => tasks.modify k GraceTask.cancel) tasks

theorem length_cancelAll (gs : List Nat) (tasks : List GraceTask) :
    (cancelAll gs tasks).length = tasks.length := by
  unfold cancelAll
  induction gs generalizing tasks with
  | nil => rfl
  | cons k gs ih => rw [List.foldl_cons, ih, List.length_modify]

theorem getElem?_cancelAll {tasks : List GraceTask} {task' : GraceTask} (gs : List Nat)
    (hg : (cancelAll gs tasks)[g]? = some task') :
    ∃ task, tasks[g]? = some task ∧ (task' = task ∨ g ∈ gs ∧ task' = task.cancel) := by
  unfold cancelAll at hg
  induction gs generalizing tasks with
  | nil => exact ⟨task', hg, .inl rfl⟩
  | cons k gs ih =>
    obtain ⟨task₁, hg₁, htask⟩ := ih hg
    rw [List.getElem?_modify] at hg₁
    obtain ⟨task, hg₀, rfl⟩ := Option.map_eq_some_iff.mp hg₁
    refine ⟨task, hg₀, ?_⟩
    split at htask
    · rename_i hk
      refine .inr ⟨hk ▸ List.mem_cons_self, ?_⟩
      rcases htask with rfl | ⟨-, rfl⟩ <;> rfl
    · exact htask.imp_right fun h => ⟨List.mem_cons_of_mem _ h.1, h.2⟩

/-- What any step can do to the list of tasks. -/
inductive GracesStep (m t : Manager) (a : Action) : Prop
  | keep (hgraces : t.graces = m.graces)
  | cancel (hgraces : t.graces = cancelAll (m.flags a) m.graces)
  | note (s : Session) (hfinds : m.finds a = some s)
      (hgraces : t.graces = m.graces.map (GraceTask.noteResumed s.id))
  | release (client : String) (ha : a = .release client)
      (hgraces : t.graces = cancelAll (m.flags a) m.graces ++
        [⟨client, false, m.ownedBy client, [], .sleeping⟩])
  | own (i : Nat) (task : GraceTask) (ha : a = .graceStep i) (hi : m.graces[i]? = some task)
      (hstep : m.graceStep i task = some t)

theorem flags_of_cancelling {call : ResumeCall} {s : Session} {k : Nat} (hi : m.resumes[i]? = some call)
    (hp : call.phase = .cancelling s) (hk : m.graceTasks.get s.display = some k) :
    m.flags (.resumeStep i) = [k] := by
  obtain ⟨id, client, phase⟩ := call
  subst hp
  simp only [flags, hi, hk, Option.toList_some]

theorem flags_of_cancelGrace {call : DestroyCall} {k : Nat} (hi : m.destroys[i]? = some call)
    (hp : call.phase = .cancelGrace) (hk : m.graceTasks.get call.display = some k) :
    m.flags (.destroyStep i) = [k] := by
  obtain ⟨disp, grace, phase⟩ := call
  subst hp
  simp only [flags, hi, hk, Option.toList_some]

theorem step_graces (ht : m.step a = some t) : GracesStep m t a := by
  cases a with
  | resumeStep i =>
    obtain ⟨call, hi, ht⟩ := Option.bind_eq_some_iff.mp ht
    cases resumeStep_cases ht with
    | @find s hp hfind => exact .note s ((finds_of_finding hi hp).trans hfind) rfl
    | @cancel s k hp hk => exact .cancel (by rw [flags_of_cancelling hi hp hk]; rfl)
    | missing | noGrace | ack => exact .keep rfl
  | destroyStep i =>
    obtain ⟨call, hi, ht⟩ := Option.bind_eq_some_iff.mp ht
    cases destroyStep_cases ht with
    | @cancel k hp hk => exact .cancel (by rw [flags_of_cancelGrace hi hp hk]; rfl)
    | unbind => exact .keep (by rw [unbindDisplay_frame]; rfl)
    | _ => exact .keep rfl
  | release client =>
    obtain rfl := Option.some.inj ht
    by_cases hnone : m.ownedBy client = []
    · have hsame : m.release client = m := if_pos hnone
      exact .keep (congrArg graces hsame)
    · exact .release client rfl (congrArg graces (if_neg hnone))
  | graceStep i =>
    obtain ⟨task, hi, ht⟩ := Option.bind_eq_some_iff.mp ht
    exact .own i task rfl hi ht
  | _ => exact .keep ((step_frame ht).graces rfl)

/-- A step of a task changes its phase; it awaits only calls that have been made. -/
theorem graceStep_graces {task : GraceTask} (ht : m.graceStep i task = some t) :
    ∃ phase, t.graces = m.graces.set i { task with phase := phase } ∧
      ∀ j all rest, phase = .awaiting j all rest → j < t.destroys.length := by
  cases graceStep_cases ht with
  | destroy =>
    refine ⟨_, rfl, fun j all rest hp => ?_⟩
    obtain ⟨rfl, -, -⟩ := GracePhase.awaiting.inj hp
    simp [setGrace]
  | _ => exact ⟨_, rfl, nofun⟩

theorem step_graces_length (ht : m.step a = some t) : m.graces.length ≤ t.graces.length := by
  cases step_graces ht with
  | keep hgraces => rw [hgraces]
  | cancel hgraces => rw [hgraces, length_cancelAll]
  | note s _ hgraces => rw [hgraces, List.length_map]
  | release client _ hgraces =>
    rw [hgraces, List.length_append, length_cancelAll]
    exact Nat.le_add_right _ _
  | own i task _ _ hstep =>
    obtain ⟨phase, hgraces, -⟩ := graceStep_graces hstep
    rw [hgraces, List.length_set]

/-- What any step can do to one task. -/
inductive TaskStep (m t : Manager) (a : Action) (g : Nat) (task' : GraceTask) : Prop
  | own (task : GraceTask) (hg : m.graces[g]? = some task) (ha : a = .graceStep g)
      (hstep : m.graceStep g task = some t)
  | other (task : GraceTask) (hg : m.graces[g]? = some task) (ha : a ≠ .graceStep g)
      (hclient : task'.client = task.client)
      (hreleased : task'.released = task.released) (hphase : task'.phase = task.phase)
      (hresumed : task'.resumed = task.resumed ∨
        ∃ s, m.finds a = some s ∧ task'.resumed = s.id :: task.resumed)
      (hflag : task'.cancelled = true → task.cancelled = true ∨ g ∈ m.flags a)
  | new (client : String) (ha : a = .release client) (hg : g = m.graces.length)
      (htask : task' = ⟨client, false, m.ownedBy client, [], .sleeping⟩)

theorem TaskStep.cancelled {task' : GraceTask} (ha : a ≠ .graceStep g)
    (hg : (cancelAll (m.flags a) m.graces)[g]? = some task') : TaskStep m t a g task' := by
  obtain ⟨task, hold, rfl | ⟨hk, rfl⟩⟩ := getElem?_cancelAll _ hg
  · exact .other task' hold ha rfl rfl rfl (.inl rfl) .inl
  · exact .other task hold ha rfl rfl rfl (.inl rfl) fun _ => .inr hk

theorem step_task {task' : GraceTask} (ht : m.step a = some t) (hg : t.graces[g]? = some task') :
    TaskStep m t a g task' := by
  by_cases ha : a = .graceStep g
  · subst ha
    obtain ⟨task, hi, ht⟩ := Option.bind_eq_some_iff.mp ht
    exact .own task hi rfl ht
  cases step_graces ht with
  | keep hgraces => exact .other task' (hgraces ▸ hg) ha rfl rfl rfl (.inl rfl) .inl
  | cancel hgraces => exact .cancelled ha (hgraces ▸ hg)
  | note s hfinds hgraces =>
    rw [hgraces, List.getElem?_map] at hg
    obtain ⟨task, hold, rfl⟩ := Option.map_eq_some_iff.mp hg
    exact .other task hold ha rfl rfl rfl (.inr ⟨s, hfinds, rfl⟩) .inl
  | release client harel hgraces =>
    rw [hgraces, List.getElem?_append] at hg
    split at hg
    · exact .cancelled ha hg
    · rename_i hlen
      obtain ⟨hlt, -⟩ := List.getElem?_eq_some_iff.mp hg
      rw [length_cancelAll] at hlen hlt
      rw [List.length_singleton] at hlt
      exact .new client harel (by omega) (List.mem_singleton.mp (List.mem_of_getElem? hg))
  | own i task hagrace hi hstep =>
    have hig : i ≠ g := fun hig => ha (hig ▸ hagrace)
    obtain ⟨phase, hgraces, -⟩ := graceStep_graces hstep
    rw [hgraces, List.getElem?_set_ne hig] at hg
    exact .other task' hg ha rfl rfl rfl (.inl rfl) .inl

/-- A task that was there keeps what it has released, and the sessions resumed since then. -/
theorem step_task_keeps {task' : GraceTask} (ht : m.step a = some t)
    (hg' : t.graces[g]? = some task') :
    (∃ task, m.graces[g]? = some task ∧ task'.client = task.client ∧
      task'.released = task.released ∧ ∀ id ∈ task.resumed, id ∈ task'.resumed) ∨
    g = m.graces.length ∧ ∃ client, a = .release client ∧
      task' = ⟨client, false, m.ownedBy client, [], .sleeping⟩ := by
  cases step_task ht hg' with
  | own task hg _ hstep =>
    obtain ⟨hlt, -⟩ := List.getElem?_eq_some_iff.mp hg
    obtain ⟨phase, hgraces, -⟩ := graceStep_graces hstep
    rw [hgraces, List.getElem?_set_self hlt] at hg'
    obtain rfl := Option.some.inj hg'
    exact .inl ⟨task, hg, rfl, rfl, fun _ h => h⟩
  | other task hg _ hclient hreleased _ hresumed _ =>
    refine .inl ⟨task, hg, hclient, hreleased, fun id hid => ?_⟩
    rcases hresumed with hsame | ⟨s, -, hmore⟩
    · exact hsame ▸ hid
    · exact hmore ▸ List.mem_cons_of_mem _ hid
  | new client ha hnew htask => exact .inr ⟨hnew, client, ha, htask⟩

theorem step_keeps_task {task : GraceTask} (hg : m.graces[g]? = some task) (ht : m.step a = some t) :
    ∃ task', t.graces[g]? = some task' ∧ task'.released = task.released ∧
      ∀ id ∈ task.resumed, id ∈ task'.resumed := by
  obtain ⟨hlt, -⟩ := List.getElem?_eq_some_iff.mp hg
  have hg' := List.getElem?_eq_getElem (Nat.lt_of_lt_of_le hlt (step_graces_length ht))
  refine ⟨_, hg', ?_⟩
  rcases step_task_keeps ht hg' with ⟨task₀, hg₀, -, hkeeps⟩ | ⟨hnew, -⟩
  · obtain rfl := Option.some.inj (hg.symm.trans hg₀)
    exact hkeeps
  · omega

/-- A task changes its phase by its own steps only. -/
theorem step_same_phase {task : GraceTask} (hg : m.graces[g]? = some task) (ht : m.step a = some t)
    (ha : a ≠ .graceStep g) : ∃ task', t.graces[g]? = some task' ∧ task'.phase = task.phase := by
  obtain ⟨task', hg', -⟩ := step_keeps_task hg ht
  refine ⟨task', hg', ?_⟩
  cases step_task ht hg' with
  | own _ _ hown _ => exact absurd hown ha
  | other task₀ hg₀ _ _ _ hphase _ _ =>
    obtain rfl := Option.some.inj (hg.symm.trans hg₀)
    exact hphase
  | new _ _ hnew _ =>
    obtain ⟨hlt, -⟩ := List.getElem?_eq_some_iff.mp hg
    omega

/-! ## What a step does to the destroy calls -/

/-- What any step can do to the list of `destroy_session` calls. -/
inductive DestroysStep (m t : Manager) (a : Action) : Prop
  | keep (hdestroys : t.destroys = m.destroys)
  | call (disp : DisplayNumber) (grace : Option Nat)
      (hdestroys : t.destroys = m.destroys ++ [⟨disp, grace, .cancelGrace⟩])
      (hgrace : ∀ g, grace = some g → ∃ task all rest, t.graces[g]? = some task ∧
        task.phase = .awaiting m.destroys.length all rest)
  | own (i : Nat) (call : DestroyCall) (ha : a = .destroyStep i) (hi : m.destroys[i]? = some call)
      (hstep : m.destroyStep i call = some t)

theorem step_destroys (ht : m.step a = some t) : DestroysStep m t a := by
  cases a with
  | destroy disp =>
    obtain rfl := Option.some.inj ht
    exact .call disp none rfl nofun
  | destroyStep i =>
    obtain ⟨call, hi, ht⟩ := Option.bind_eq_some_iff.mp ht
    exact .own i call rfl hi ht
  | graceStep i =>
    obtain ⟨task, hi, ht⟩ := Option.bind_eq_some_iff.mp ht
    obtain ⟨hlt, -⟩ := List.getElem?_eq_some_iff.mp hi
    cases graceStep_cases ht with
    | @destroy all rest disp disp' =>
      refine .call disp' (some i) rfl fun g hg => ?_
      obtain rfl := Option.some.inj hg
      exact ⟨_, all, rest, List.getElem?_set_self hlt, rfl⟩
    | _ => exact .keep rfl
  | _ => exact .keep ((step_frame ht).destroys rfl)

/-- A section of `destroy_session` moves its call; the last one leaves no session. -/
theorem destroyStep_destroys {call : DestroyCall} (ht : m.destroyStep i call = some t) :
    ∃ phase, t.destroys = m.destroys.set i { call with phase := phase } ∧
      phase.left < call.phase.left ∧
      (phase = .done → t.sessions = m.sessions.remove call.display) := by
  cases destroyStep_cases ht with
  | removeSession hp => exact ⟨_, rfl, by simp [hp, DestroyPhase.left], fun _ => rfl⟩
  | unbind hp =>
    exact ⟨.takeConns, by rw [unbindDisplay_frame]; rfl, by simp [hp, DestroyPhase.left],
      fun hdone => by cases hdone⟩
  | cancel hp | noGrace hp | take hp | noConns hp | close hp | removeCookie hp | removeRelay hp =>
    exact ⟨_, rfl, by simp [hp, DestroyPhase.left], fun hdone => by cases hdone⟩

theorem step_destroys_length (ht : m.step a = some t) : m.destroys.length ≤ t.destroys.length := by
  cases step_destroys ht with
  | keep hdestroys => rw [hdestroys]
  | call disp grace hdestroys =>
    rw [hdestroys, List.length_append]
    exact Nat.le_add_right _ _
  | own i call _ _ hstep =>
    obtain ⟨phase, hdestroys, -⟩ := destroyStep_destroys hstep
    rw [hdestroys, List.length_set]

/-- A task awaits only calls that have been made. -/
theorem step_awaits {task' : GraceTask} {j : Nat} {all rest : List DisplayNumber}
    (h : ∀ task, m.graces[g]? = some task → ∀ j all rest, task.phase = .awaiting j all rest →
      j < m.destroys.length)
    (ht : m.step a = some t) (hg' : t.graces[g]? = some task')
    (hp : task'.phase = .awaiting j all rest) : j < t.destroys.length := by
  cases step_task ht hg' with
  | own task hg ha hstep =>
    obtain ⟨hlt, -⟩ := List.getElem?_eq_some_iff.mp hg
    obtain ⟨phase, hgraces, hawaits⟩ := graceStep_graces hstep
    rw [hgraces, List.getElem?_set_self hlt] at hg'
    obtain rfl := Option.some.inj hg'
    exact hawaits j all rest hp
  | other task hg _ _ _ hphase _ _ =>
    exact Nat.lt_of_lt_of_le (h task hg j all rest (hphase ▸ hp)) (step_destroys_length ht)
  | new client ha hnew htask =>
    subst htask
    contradiction

/-! ## Sessions that nobody cares for -/

/-- A call of `destroy_session` for the display has not returned. -/
def Destroying (m : Manager) (disp : DisplayNumber) : Prop :=
  ∃ call ∈ m.destroys, call.display = disp ∧ call.phase ≠ .done

/-- A session released by the task `g` is gone, was resumed since then, is being destroyed, or a later
    release has started its grace period again. -/
def CaredFor (m : Manager) (g : Nat) (x : DisplayNumber × SessionId) : Prop :=
  m.Gone x ∨ (∃ task ∈ m.graces[g]?, x.2 ∈ task.resumed) ∨ m.Destroying x.1 ∨
    ∃ task ∈ m.graces.drop (g + 1), x ∈ task.released

instance (m : Manager) (g : Nat) (x : DisplayNumber × SessionId) : Decidable (m.CaredFor g x) :=
  inferInstanceAs (Decidable (_ ∨ (∃ task ∈ m.graces[g]?, _) ∨ (∃ call ∈ m.destroys, _) ∨ ∃ task ∈ _, _))

/-- While the task `g` sleeps, its flag is set only when each session it released is cared for, or is
    released again by the same action; and it releases only sessions of valid displays. -/
def Unshared (g : Nat) (m : Manager) (a : Action) : Prop :=
  (g ∈ m.flags a → ∀ task ∈ m.graces[g]?, task.phase = .sleeping → ∀ x ∈ task.released,
    x ∈ m.releases a ∨ m.CaredFor g x) ∧
  (g = m.graces.length → ∀ x ∈ m.releases a, x.1.raw.toNat ≤ maxDisplayNumber)

instance (g : Nat) (m : Manager) (a : Action) : Decidable (Unshared g m a) :=
  inferInstanceAs (Decidable ((_ → ∀ task ∈ m.graces[g]?, _ → ∀ x ∈ task.released, _ ∨ _) ∧
    (_ → ∀ x ∈ m.releases a, _)))

/-- A call that has not returned goes on, or has just removed the session of its display. -/
theorem Destroying.step {disp : DisplayNumber} (h : m.Destroying disp) (ht : m.step a = some t) :
    t.Destroying disp ∨ t.sessions.get disp = none := by
  unfold Destroying
  cases step_destroys ht with
  | keep hdestroys => exact .inl (hdestroys ▸ h)
  | call d grace hdestroys =>
    obtain ⟨call, hcall, hd⟩ := h
    exact .inl ⟨call, hdestroys ▸ List.mem_append_left _ hcall, hd⟩
  | own i call _ hi hstep =>
    obtain ⟨hlt, -⟩ := List.getElem?_eq_some_iff.mp hi
    obtain ⟨phase, hdestroys, -, hlast⟩ := destroyStep_destroys hstep
    rw [hdestroys]
    rcases exists_mem_set { call with phase := phase } hi h with hother | ⟨rfl, -⟩
    · exact .inl hother
    by_cases hdone : phase = .done
    · right
      rw [hlast hdone, Table.get_remove_self]
    · exact .inl ⟨_, List.mem_set hlt _, rfl, hdone⟩

theorem CaredFor.step (hcared : m.CaredFor g x) (h : IdsInv m) (hx : x.2 ∈ m.issued)
    (ht : m.step a = some t) : t.CaredFor g x := by
  rcases hcared with hgone | ⟨task, hg, hresumed⟩ | hdestroying | ⟨task, htask, hreleased⟩
  · exact .inl (hgone.step h hx ht)
  · obtain ⟨task', hg', -, hkeeps⟩ := step_keeps_task hg ht
    exact .inr (.inl ⟨task', hg', hkeeps _ hresumed⟩)
  · rcases hdestroying.step ht with hdestroying | hnone
    · exact .inr (.inr (.inl hdestroying))
    · exact .inl fun s hs => absurd (hnone ▸ hs) nofun
  · obtain ⟨k, hk⟩ := List.mem_iff_getElem?.mp htask
    rw [List.getElem?_drop] at hk
    obtain ⟨task', hk', hsame, -⟩ := step_keeps_task hk ht
    refine .inr (.inr (.inr ⟨task', List.mem_iff_getElem?.mpr ⟨k, ?_⟩, hsame ▸ hreleased⟩))
    rw [List.getElem?_drop, hk']

theorem mem_ownedBy {client : String} (hx : x ∈ m.ownedBy client) :
    ∃ s, m.sessions.get x.1 = some s ∧ s.id = x.2 ∧ s.clientId = client := by
  obtain ⟨⟨disp, s⟩, hmem, rfl⟩ := List.mem_map.mp hx
  obtain ⟨hmem, howner⟩ := List.mem_filter.mp hmem
  exact ⟨s, Table.mem_entries.mp hmem, rfl, of_decide_eq_true howner⟩

/-- What holds of the task `g` as long as its flag is not shared. -/
structure GraceInv (g : Nat) (m : Manager) : Prop where
  ids : IdsInv m
  issued : ∀ task, m.graces[g]? = some task → ∀ x ∈ task.released, x.2 ∈ m.issued
  valid : ∀ task, m.graces[g]? = some task → ∀ x ∈ task.released, x.1.raw.toNat ≤ maxDisplayNumber
  owner : ∀ task, m.graces[g]? = some task → ∀ x ∈ task.released, ∀ s, m.sessions.get x.1 = some s →
    s.id = x.2 → s.clientId = task.client ∨ x.2 ∈ task.resumed
  care : ∀ task, m.graces[g]? = some task → ∀ x ∈ task.released, m.CaredFor g x ∨ task.covers x.1
  awaits : ∀ task, m.graces[g]? = some task → ∀ j all rest, task.phase = .awaiting j all rest →
    j < m.destroys.length

/-- A session that the task released is gone, resumed, or in the snapshot. -/
theorem GraceInv.snapshot {task : GraceTask} (h : GraceInv g m) (hg : m.graces[g]? = some task)
    (hx : x ∈ task.released) : m.CaredFor g x ∨
      x.1 ∈ (m.sessions.entries.filter fun e => e.2.clientId = task.client).map Prod.fst := by
  by_cases hgone : m.Gone x
  · exact .inl (.inl hgone)
  unfold Gone at hgone
  push Not at hgone
  obtain ⟨s, hs, hid⟩ := hgone
  rcases h.owner task hg x hx s hs hid with howner | hresumed
  · refine .inr (List.mem_map.mpr ⟨(x.1, s), List.mem_filter.mpr ⟨?_, by simp [howner]⟩, rfl⟩)
    exact Table.mem_entries.mpr hs
  · exact .inl (.inr (.inl ⟨task, hg, hresumed⟩))

theorem displayNumber_new_of_le {disp : DisplayNumber} (h : disp.raw.toNat ≤ maxDisplayNumber) :
    DisplayNumber.new disp.raw = .ok disp :=
  if_neg (Nat.not_lt.mpr h)

/-- The task goes on: it comes to each session that nobody else cares for. -/
theorem graceStep_care {task task' : GraceTask} (h : GraceInv g m) (hg : m.graces[g]? = some task)
    (ht : m.step (.graceStep g) = some t) (hg' : t.graces[g]? = some task')
    (hx : x ∈ task.released) : t.CaredFor g x ∨ task'.covers x.1 := by
  obtain ⟨task₀, hg₀, hstep⟩ := Option.bind_eq_some_iff.mp ht
  obtain rfl := Option.some.inj (hg.symm.trans hg₀)
  obtain ⟨hlt, -⟩ := List.getElem?_eq_some_iff.mp hg
  have hkeep : m.CaredFor g x → t.CaredFor g x := fun hcared =>
    hcared.step h.ids (h.issued task hg x hx) ht
  have hmoved : ∀ phase, t.graces = m.graces.set g { task with phase := phase } →
      task' = { task with phase := phase } := by
    intro phase hgraces
    rw [hgraces, List.getElem?_set_self hlt] at hg'
    exact (Option.some.inj hg').symm
  have hcare := h.care task hg x hx
  cases graceStep_cases hstep with
  | cancelled hp hflag =>
    refine .inl (hkeep (hcare.resolve_right ?_))
    simp [GraceTask.covers, hp, hflag]
  | fire hp =>
    obtain rfl := hmoved _ rfl
    exact .inr trivial
  | snapshot hp howned =>
    obtain rfl := hmoved _ rfl
    subst howned
    exact (h.snapshot hg hx).imp_left hkeep
  | finish hp =>
    refine .inl (hkeep (hcare.resolve_right ?_))
    simp [GraceTask.covers, hp]
  | @destroy all rest disp disp' hp hnew =>
    obtain rfl := hmoved _ rfl
    rcases hcare with hcared | hcovers
    · exact .inl (hkeep hcared)
    simp only [GraceTask.covers, hp, List.mem_cons] at hcovers
    rcases hcovers with hd | hrest
    · refine .inl (.inr (.inr (.inl ⟨_, List.mem_append_right _ (List.mem_singleton_self _), ?_, nofun⟩)))
      exact (DisplayNumber.eq_of_new_raw hnew).trans hd.symm
    · exact .inr hrest
  | @skip all rest disp error hp hnew =>
    obtain rfl := hmoved _ rfl
    rcases hcare with hcared | hcovers
    · exact .inl (hkeep hcared)
    simp only [GraceTask.covers, hp, List.mem_cons] at hcovers
    rcases hcovers with hd | hrest
    · -- a valid display is not skipped
      rw [← hd, displayNumber_new_of_le (h.valid task hg x hx)] at hnew
      contradiction
    · exact .inr hrest
  | awaited hp =>
    obtain rfl := hmoved _ rfl
    refine hcare.imp hkeep fun hcovers => ?_
    simpa [GraceTask.covers, hp] using hcovers

/-- What is released again is in the task of the new release. -/
theorem released_later (ht : m.step a = some t) (hx : x ∈ m.releases a) (hlt : g < m.graces.length) :
    ∃ task ∈ t.graces.drop (g + 1), x ∈ task.released := by
  cases a with
  | release client =>
    obtain rfl := Option.some.inj ht
    have hnone : m.ownedBy client ≠ [] := List.ne_nil_of_mem hx
    have hgraces : (m.release client).graces = cancelAll (m.flags (.release client)) m.graces ++
        [⟨client, false, m.ownedBy client, [], .sleeping⟩] := congrArg graces (if_neg hnone)
    refine ⟨⟨client, false, m.ownedBy client, [], .sleeping⟩, ?_, hx⟩
    rw [hgraces, List.drop_append_of_le_length (by rw [length_cancelAll]; exact hlt)]
    exact List.mem_append_right _ (List.mem_singleton_self _)
  | _ => exact absurd hx List.not_mem_nil

/-- Another step: the task comes to the same sessions, unless its flag is set. -/
theorem other_care {task task' : GraceTask} (h : GraceInv g m) (hu : Unshared g m a)
    (ht : m.step a = some t) (hg : m.graces[g]? = some task) (hphase : task'.phase = task.phase)
    (hflag : task'.cancelled = true → task.cancelled = true ∨ g ∈ m.flags a)
    (hx : x ∈ task.released) : t.CaredFor g x ∨ task'.covers x.1 := by
  have hkeep : m.CaredFor g x → t.CaredFor g x := fun hcared =>
    hcared.step h.ids (h.issued task hg x hx) ht
  rcases h.care task hg x hx with hcared | hcovers
  · exact .inl (hkeep hcared)
  cases hp : task.phase with
  | sleeping =>
    have hoff : task.cancelled = false := by simpa [GraceTask.covers, hp] using hcovers
    cases hflag' : task'.cancelled with
    | false => exact .inr (by simp [GraceTask.covers, hphase, hp, hflag'])
    | true =>
      rcases hflag hflag' with hon | hset
      · rw [hoff] at hon
        contradiction
      rcases hu.1 hset task hg hp x hx with hagain | hcared
      · obtain ⟨hlt, -⟩ := List.getElem?_eq_some_iff.mp hg
        exact .inl (.inr (.inr (.inr (released_later ht hagain hlt))))
      · exact .inl (hkeep hcared)
  | checked | destroying | awaiting | ended =>
    unfold GraceTask.covers at hcovers ⊢
    rw [hphase, hp]
    rw [hp] at hcovers
    exact .inr hcovers

theorem step_graceInv (h : GraceInv g m) (hu : Unshared g m a) (ht : m.step a = some t) :
    GraceInv g t where
  ids := step_idsInv h.ids ht
  issued task' hg' x hx := by
    refine step_issued ht ?_
    rcases step_task_keeps ht hg' with ⟨task, hg, -, hreleased, -⟩ | ⟨-, client, -, rfl⟩
    · exact h.issued task hg x (hreleased ▸ hx)
    · obtain ⟨s, hs, hid, -⟩ := mem_ownedBy hx
      exact hid ▸ h.ids.issued x.1 s hs
  valid task' hg' x hx := by
    rcases step_task_keeps ht hg' with ⟨task, hg, -, hreleased, -⟩ | ⟨hnew, client, rfl, rfl⟩
    · exact h.valid task hg x (hreleased ▸ hx)
    · exact hu.2 hnew x hx
  owner task' hg' x hx s hs hid := by
    rcases step_task_keeps ht hg' with ⟨task, hg, hclient, hreleased, hresumed⟩ |
      ⟨-, client, rfl, rfl⟩
    · rw [hreleased] at hx
      rcases session_before h.ids ht hs with ⟨hfresh, -⟩ | ⟨s', hs', hid', -, hsame | ⟨-, hgraces⟩⟩
      · exact absurd (hid ▸ h.issued task hg x hx) hfresh
      · rw [← hsame, hclient]
        exact (h.owner task hg x hx s' hs' (hid'.trans hid)).imp_right (hresumed x.2)
      · rw [hgraces, List.getElem?_map, hg] at hg'
        obtain rfl := Option.some.inj hg'
        exact .inr (hid'.trans hid ▸ List.mem_cons_self)
    · obtain rfl := Option.some.inj ht
      rw [release_frame] at hs
      obtain ⟨s', hs', -, howner⟩ := mem_ownedBy hx
      obtain rfl := Option.some.inj (hs.symm.trans hs')
      exact .inl howner
  care task' hg' x hx := by
    cases step_task ht hg' with
    | own task hg ha hstep =>
      subst ha
      refine graceStep_care h hg ht hg' ?_
      obtain ⟨task'', hg'', hreleased, -⟩ := step_keeps_task hg ht
      obtain rfl := Option.some.inj (hg'.symm.trans hg'')
      exact hreleased ▸ hx
    | other task hg _ _ hreleased hphase _ hflag =>
      exact other_care h hu ht hg hphase hflag (hreleased ▸ hx)
    | new client ha hnew htask =>
      subst htask
      exact .inr rfl
  awaits task' hg' j all rest hp := step_awaits h.awaits ht hg' hp

theorem init_graceInv : GraceInv g init where
  ids := init_idsInv
  issued _ h := nomatch h
  valid _ h := nomatch h
  owner _ h := nomatch h
  care _ h := nomatch h
  awaits _ h := nomatch h

/-! ## The task goes on -/

/-- A bound on the steps of a task that are left, but for those of the calls that it awaits. -/
def stepsLeft (m : Manager) (task : GraceTask) : Nat :=
  match task.phase with
  | .sleeping => 2 * (m.ownedBy task.client).length + 3
  | .checked => 2 * (m.ownedBy task.client).length + 2
  | .destroying _ rest => 2 * rest.length + 1
  | .awaiting _ _ rest => 2 * rest.length + 2
  | .ended => 0

/-- A task that has not ended goes on by itself, unless it awaits a call. -/
theorem graceStep_enabled {task : GraceTask} (hended : task.phase ≠ .ended)
    (hawaits : ∀ j all rest, task.phase = .awaiting j all rest →
      ∃ call, m.destroys[j]? = some call ∧ call.phase = .done) : ∃ t, m.graceStep g task = some t := by
  unfold graceStep
  cases hp : task.phase with
  | sleeping => cases task.cancelled <;> exact ⟨_, rfl⟩
  | checked => exact ⟨_, rfl⟩
  | destroying all rest =>
    cases rest with
    | nil => exact ⟨_, rfl⟩
    | cons disp rest =>
      dsimp only
      split <;> exact ⟨_, rfl⟩
  | awaiting j all rest =>
    obtain ⟨⟨disp, grace, phase⟩, hj, hdone⟩ := hawaits j all rest hp
    dsimp only at hdone
    subst hdone
    simp only [hj]
    exact ⟨_, rfl⟩
  | ended => exact absurd hp hended

/-- A step of the task leaves it less to do. -/
theorem graceStep_less {task : GraceTask} (hg : m.graces[g]? = some task)
    (ht : m.graceStep g task = some t) : ∃ task', t.graces[g]? = some task' ∧
      task'.released = task.released ∧ t.stepsLeft task' < m.stepsLeft task := by
  obtain ⟨hlt, -⟩ := List.getElem?_eq_some_iff.mp hg
  have hless : ∀ phase, t.graces = m.graces.set g { task with phase := phase } →
      t.stepsLeft { task with phase := phase } < m.stepsLeft task →
      ∃ task', t.graces[g]? = some task' ∧ task'.released = task.released ∧
        t.stepsLeft task' < m.stepsLeft task := by
    intro phase hgraces hless
    exact ⟨{ task with phase := phase }, by rw [hgraces, List.getElem?_set_self hlt], rfl, hless⟩
  cases graceStep_cases ht with
  | cancelled hp => exact hless _ rfl (by simp [stepsLeft, hp])
  | fire hp => exact hless _ rfl (by simp [stepsLeft, hp, ownedBy, setGrace])
  | snapshot hp howned => exact hless _ rfl (by simp [stepsLeft, hp, ownedBy, howned])
  | finish hp => exact hless _ rfl (by simp [stepsLeft, hp])
  | destroy hp => exact hless _ rfl (by simp [stepsLeft, hp]; omega)
  | skip hp => exact hless _ rfl (by simp [stepsLeft, hp])
  | awaited hp => exact hless _ rfl (by simp [stepsLeft, hp])

/-- A call that the task awaits goes on, once the lock of `connections` is free. -/
theorem destroyStep_enabled (i : Nat) {call : DestroyCall} (hdone : call.phase ≠ .done)
    (hfree : m.connectionsFree = true) : ∃ t, m.destroyStep i call = some t := by
  rcases destroyStep_next m i call with ⟨t, hstep⟩ | ⟨-, hp | ⟨-, hlocked⟩⟩
  · exact ⟨t, hstep.taken⟩
  · exact absurd hp hdone
  · rw [hfree] at hlocked
    contradiction

/-- A step that sets no flag and releases nothing. -/
theorem unshared_of_quiet (hflags : m.flags a = []) (hreleases : m.releases a = []) : Unshared g m a := by
  refine ⟨fun hset => ?_, fun _ x hx => ?_⟩
  · rw [hflags] at hset
    exact absurd hset List.not_mem_nil
  · rw [hreleases] at hx
    exact absurd hx List.not_mem_nil

/-- A section of `destroy_session` sets the flag of a task that has looked at it already. -/
theorem unshared_of_destroyStep {task : GraceTask} (hg : m.graces[g]? = some task)
    (hp : task.phase ≠ .sleeping) (j : Nat) : Unshared g m (.destroyStep j) := by
  refine ⟨fun _ task' hg' hp' => ?_, fun _ x hx => absurd hx List.not_mem_nil⟩
  obtain rfl := Option.some.inj (hg.symm.trans hg')
  exact absurd hp' hp

end Manager

end RemoteX11.Sessions
