/-
  Connections and calls over one step of the session manager: what a later layer needs to know of them
  without looking into the sections.

  A connection is registered only by the application that has its id (`connection_before`), which never
  happens again once it has been unregistered (`step_unregisteredGone`). A create or resume call moves
  forward under its client, and keeps the session that it has got hold of.
-/
import RemoteX11.Sessions.Ownership

namespace RemoteX11.Sessions

open RemoteX11.Lib RemoteX11.Protocol

/-- The call has yet to return, or its client is yet to be acked. -/
def CreatePhase.pending : CreatePhase → Bool
  | .acked _ | .returnedErr _ => false
  | _ => true

def ResumePhase.pending : ResumePhase → Bool
  | .acked _ | .returnedErr _ => false
  | _ => true

/-- The session whose owner the call has changed. -/
def ResumePhase.session : ResumePhase → Option Session
  | .cancelling session | .returnedOk session | .acked session => some session
  | _ => none

namespace Manager

variable {m t : Manager} {a : Action} {c : ConnectionId} {disp : DisplayNumber}

/-! ## Connections and calls over one step of the manager -/

/-- A registered connection was registered before, or an application has just inserted it. -/
theorem connection_before (ht : m.step a = some t) (hc : t.connections.get c = some disp) :
    m.connections.get c = some disp ∨ ∃ i app, a = .appStep i ∧ m.apps[i]? = some app ∧
      app.phase = .inserting ∧ app.connectionId = c := by
  cases a with
  | destroyStep i =>
    obtain ⟨call, -, ht⟩ := Option.bind_eq_some_iff.mp ht
    cases destroyStep_cases ht with
    | @close ids hp hfree =>
      change (m.connections.removeAll ids).get c = some disp at hc
      rw [Table.get_removeAll] at hc
      split at hc
      · contradiction
      · exact .inl hc
    | unbind =>
      rw [unbindDisplay_frame] at hc
      exact .inl hc
    | _ => exact .inl hc
  | appStep i =>
    obtain ⟨app, hi, ht⟩ := Option.bind_eq_some_iff.mp ht
    rcases appStep_cases ht with ⟨relay, -, -, rfl⟩ | ⟨error, -, rfl⟩ | ⟨-, -, rfl⟩ | ⟨hp, -, rfl⟩ |
      ⟨-, rfl⟩
    case inr.inr.inr.inl =>
      change (m.connections.put app.connectionId app.display).get c = some disp at hc
      rw [Table.get_put] at hc
      split at hc
      · rename_i heq
        exact .inr ⟨i, app, rfl, hi, hp, heq.symm⟩
      · exact .inl hc
    all_goals exact .inl hc
  | unregisterStep i =>
    obtain ⟨call, -, ht⟩ := Option.bind_eq_some_iff.mp ht
    rcases unregisterStep_cases ht with ⟨d, -, -, -, rfl⟩ | ⟨-, -, rfl⟩ | ⟨d, ids, -, -, rfl⟩ |
      ⟨d, -, -, rfl⟩
    · exact .inl (Table.get_of_get_remove hc)
    all_goals exact .inl hc
  | _ => exact .inl ((step_frame ht).connections rfl ▸ hc)

/-- An application has inserted, or has had, a connection with this id. -/
def Known (m : Manager) (c : ConnectionId) : Prop := ∃ disp, m.HasApp AppPhase.inserted c disp

theorem HasApp.step_inserted (h : m.HasApp AppPhase.inserted c disp) (ht : m.step a = some t) :
    t.HasApp AppPhase.inserted c disp := by
  cases a with
  | accept port c' =>
    obtain ⟨handle, -, rfl⟩ := Option.map_eq_some_iff.mp ht
    obtain ⟨app, hmem, happ⟩ := h
    exact ⟨app, List.mem_append_left _ hmem, happ⟩
  | appStep i =>
    obtain ⟨app, hi, ht⟩ := Option.bind_eq_some_iff.mp ht
    rcases appStep_cases ht with ⟨relay, hp, -, rfl⟩ | ⟨error, hp, rfl⟩ | ⟨hp, -, rfl⟩ |
      ⟨hp, -, rfl⟩ | ⟨hp, rfl⟩
    case inr.inr.inr.inr => exact h.setApp hi fun _ => rfl
    all_goals exact h.setApp hi (by rw [hp]; exact nofun)
  | appEnd i =>
    obtain ⟨app, hi, ht⟩ := Option.bind_eq_some_iff.mp ht
    rcases appEnd_cases ht with ⟨hp, rfl⟩ | ⟨hp, rfl⟩ <;> exact h.setApp hi fun _ => rfl
  | _ =>
    unfold HasApp
    rw [(step_frame ht).apps rfl]
    exact h

theorem Known.step (h : m.Known c) (ht : m.step a = some t) : t.Known c := by
  obtain ⟨disp, h⟩ := h
  exact ⟨disp, h.step_inserted ht⟩

theorem RegistryInv.known (h : RegistryInv m) (hc : m.connections.get c = some disp) : m.Known c :=
  ⟨disp, h.inserted c disp hc⟩

/-- A connection that an application is about to insert is not known yet. -/
theorem Known.ne_inserting {i : Nat} {app : App} (h : m.Known c) (hreg : RegistryInv m)
    (hi : m.apps[i]? = some app) (hp : app.phase = .inserting) : c ≠ app.connectionId := by
  obtain ⟨disp, h⟩ := h
  exact h.ne_of_phase hreg.nodup hi (by rw [hp]; rfl)

/-- What has been unregistered is not registered again. -/
def UnregisteredGone (m : Manager) : Prop :=
  ∀ call ∈ m.unregisters, call.phase = .done → m.connections.get call.connectionId = none

theorem step_unregisteredGone (h : UnregisteredGone m) (hreg : RegistryInv m)
    (ht : m.step a = some t) : UnregisteredGone t := by
  have hstays : ∀ call ∈ m.unregisters, m.connections.get call.connectionId = none →
      t.connections.get call.connectionId = none := by
    intro call hcall hnone
    by_contra hsome
    obtain ⟨disp, hdisp⟩ := Option.ne_none_iff_exists'.mp hsome
    rcases connection_before ht hdisp with hold | ⟨i, app, -, hi, hp, hid⟩
    · rw [hnone] at hold
      contradiction
    · obtain ⟨d, hended⟩ := hreg.removing call hcall
      exact hended.ne_of_phase hreg.nodup hi (by rw [hp]; rfl) hid.symm
  have hadded : ∀ id, t.unregisters = m.unregisters ++ [⟨id, .removing⟩] → UnregisteredGone t := by
    intro id hunregisters
    unfold UnregisteredGone
    rw [hunregisters]
    exact forall_mem_snoc (fun call hcall hdone => hstays call hcall (h call hcall hdone)) nofun
  cases a with
  | appEnd i =>
    obtain ⟨app, hi, hstep⟩ := Option.bind_eq_some_iff.mp ht
    rcases appEnd_cases hstep with ⟨hp, rfl⟩ | ⟨hp, rfl⟩
    · exact fun call hcall hdone => hstays call hcall (h call hcall hdone)
    · exact hadded app.connectionId rfl
  | unregister id =>
    obtain ⟨-, rfl⟩ := step_unregister ht
    exact hadded id rfl
  | unregisterStep i =>
    obtain ⟨call, hi, hstep⟩ := Option.bind_eq_some_iff.mp ht
    have hmoved : ∀ phase, t.unregisters = m.unregisters.set i { call with phase := phase } →
        (phase = .done → m.connections.get call.connectionId = none) → UnregisteredGone t := by
      intro phase hunregisters hnone
      unfold UnregisteredGone
      rw [hunregisters]
      refine forall_mem_set (fun call hcall hdone => hstays call hcall (h call hcall hdone)) ?_
      exact fun hdone => hstays call (List.mem_of_getElem? hi) (hnone hdone)
    rcases unregisterStep_cases hstep with ⟨d, -, -, -, rfl⟩ | ⟨-, hnone, rfl⟩ |
      ⟨d, ids, hp, -, rfl⟩ | ⟨d, hp, -, rfl⟩
    · exact hmoved _ rfl nofun
    · exact hmoved _ rfl fun _ => hnone
    · exact hmoved _ rfl fun _ => (hreg.unlisting call (List.mem_of_getElem? hi) d hp).1
    · exact hmoved _ rfl fun _ => (hreg.unlisting call (List.mem_of_getElem? hi) d hp).1
  | _ =>
    unfold UnregisteredGone
    rw [(step_frame ht).unregisters rfl]
    exact fun call hcall hdone => hstays call hcall (h call hcall hdone)

/-- An unregister call stays the call for its connection. -/
theorem unregister_stays {k : Nat} {call : UnregisterCall} (ht : m.step a = some t)
    (hk : m.unregisters[k]? = some call) :
    ∃ call', t.unregisters[k]? = some call' ∧ call'.connectionId = call.connectionId := by
  obtain ⟨hlt, -⟩ := List.getElem?_eq_some_iff.mp hk
  cases a with
  | appEnd i =>
    obtain ⟨app, -, hstep⟩ := Option.bind_eq_some_iff.mp ht
    rcases appEnd_cases hstep with ⟨-, rfl⟩ | ⟨-, rfl⟩
    · exact ⟨call, hk, rfl⟩
    · exact ⟨call, (List.getElem?_append_left hlt).trans hk, rfl⟩
  | unregister id =>
    obtain ⟨-, rfl⟩ := step_unregister ht
    exact ⟨call, (List.getElem?_append_left hlt).trans hk, rfl⟩
  | unregisterStep i =>
    obtain ⟨call₀, hi, hstep⟩ := Option.bind_eq_some_iff.mp ht
    have hmoved : ∃ phase, t.unregisters = m.unregisters.set i { call₀ with phase := phase } := by
      rcases unregisterStep_cases hstep with ⟨d, -, -, -, rfl⟩ | ⟨-, -, rfl⟩ | ⟨d, ids, -, -, rfl⟩ |
        ⟨d, -, -, rfl⟩ <;> exact ⟨_, rfl⟩
    obtain ⟨phase, hunregisters⟩ := hmoved
    rw [hunregisters]
    obtain ⟨-, rfl, hmine⟩ | ⟨-, hother⟩ := getElem?_set_of { call₀ with phase := phase } hi hk
    · exact ⟨_, hmine, rfl⟩
    · exact ⟨call, hother, rfl⟩
  | _ => exact ⟨call, (step_frame ht).unregisters rfl ▸ hk, rfl⟩

/-- A section of `create_session` moves its call, which has not returned. -/
theorem createStep_creates {i : Nat} {call : CreateCall} {failure : Option String} {id : SessionId}
    (ht : m.createStep i call failure id = some t) :
    ∃ call', t.creates = m.creates.set i call' ∧ call'.clientId = call.clientId ∧
      call.phase.pending = true ∧ ∀ s, call.phase.session = some s → call'.phase.session = some s := by
  cases createStep_cases ht with
  | unwind hp | unbindInUse hp =>
    rw [unbindDisplay_frame]
    exact ⟨_, rfl, rfl, by rw [hp]; rfl, by simp [hp, CreatePhase.session]⟩
  | choose hp | taken hp | unbound hp | bind hp | list hp | reject hp | install hp | inUse hp
  | insert hp | removeInUse hp | ack hp =>
    exact ⟨_, rfl, rfl, by rw [hp]; rfl, by simp [hp, CreatePhase.session]⟩

theorem resumeStep_resumes {i : Nat} {call : ResumeCall} (ht : m.resumeStep i call = some t) :
    ∃ call', t.resumes = m.resumes.set i call' ∧ call'.clientId = call.clientId ∧
      call.phase.pending = true ∧ ∀ s, call.phase.session = some s → call'.phase.session = some s := by
  cases resumeStep_cases ht with
  | find hp | missing hp | cancel hp | noGrace hp | ack hp =>
    exact ⟨_, rfl, rfl, by rw [hp]; rfl, by simp [hp, ResumePhase.session]⟩

/-- As long as no call is made: a call was there before, and has not begun anew. -/
theorem create_before {k : Nat} {call' : CreateCall} (ht : m.step a = some t)
    (hmade : t.creates.length = m.creates.length) (hk : t.creates[k]? = some call') :
    ∃ call, m.creates[k]? = some call ∧ call'.clientId = call.clientId ∧
      (call'.phase.pending = true → call.phase.pending = true) := by
  cases a with
  | create | createAuto =>
    obtain rfl := Option.some.inj ht
    simp at hmade
  | createStep i failure id =>
    obtain ⟨call, hi, hstep⟩ := Option.bind_eq_some_iff.mp ht
    obtain ⟨moved, hcreates, hclient, hpending, -⟩ := createStep_creates hstep
    rw [hcreates] at hk
    obtain ⟨rfl, rfl⟩ | ⟨-, hk⟩ := getElem?_of_set hk
    · exact ⟨call, hi, hclient, fun _ => hpending⟩
    · exact ⟨call', hk, rfl, fun h => h⟩
  | _ => exact ⟨call', (step_frame ht).creates rfl ▸ hk, rfl, fun h => h⟩

theorem resume_before {k : Nat} {call' : ResumeCall} (ht : m.step a = some t)
    (hmade : t.resumes.length = m.resumes.length) (hk : t.resumes[k]? = some call') :
    ∃ call, m.resumes[k]? = some call ∧ call'.clientId = call.clientId ∧
      (call'.phase.pending = true → call.phase.pending = true) := by
  cases a with
  | resume =>
    obtain rfl := Option.some.inj ht
    simp at hmade
  | resumeStep i =>
    obtain ⟨call, hi, hstep⟩ := Option.bind_eq_some_iff.mp ht
    obtain ⟨moved, hresumes, hclient, hpending, -⟩ := resumeStep_resumes hstep
    rw [hresumes] at hk
    obtain ⟨rfl, rfl⟩ | ⟨-, hk⟩ := getElem?_of_set hk
    · exact ⟨call, hi, hclient, fun _ => hpending⟩
    · exact ⟨call', hk, rfl, fun h => h⟩
  | _ => exact ⟨call', (step_frame ht).resumes rfl ▸ hk, rfl, fun h => h⟩

/-- A call that has a session keeps it. -/
theorem create_session_stays {k : Nat} {call : CreateCall} {s : Session} (ht : m.step a = some t)
    (hk : m.creates[k]? = some call) (hs : call.phase.session = some s) :
    ∃ call', t.creates[k]? = some call' ∧ call'.phase.session = some s := by
  cases a with
  | create | createAuto =>
    obtain rfl := Option.some.inj ht
    exact ⟨call, List.getElem?_append_left (List.getElem?_eq_some_iff.mp hk).1 ▸ hk, hs⟩
  | createStep i failure id =>
    obtain ⟨call₀, hi, hstep⟩ := Option.bind_eq_some_iff.mp ht
    obtain ⟨moved, hcreates, -, -, hkeeps⟩ := createStep_creates hstep
    rw [hcreates]
    obtain ⟨-, rfl, hmine⟩ | ⟨-, hother⟩ := getElem?_set_of moved hi hk
    · exact ⟨moved, hmine, hkeeps s hs⟩
    · exact ⟨call, hother, hs⟩
  | _ => exact ⟨call, (step_frame ht).creates rfl ▸ hk, hs⟩

theorem resume_session_stays {k : Nat} {call : ResumeCall} {s : Session} (ht : m.step a = some t)
    (hk : m.resumes[k]? = some call) (hs : call.phase.session = some s) :
    ∃ call', t.resumes[k]? = some call' ∧ call'.phase.session = some s := by
  cases a with
  | resume =>
    obtain rfl := Option.some.inj ht
    exact ⟨call, List.getElem?_append_left (List.getElem?_eq_some_iff.mp hk).1 ▸ hk, hs⟩
  | resumeStep i =>
    obtain ⟨call₀, hi, hstep⟩ := Option.bind_eq_some_iff.mp ht
    obtain ⟨moved, hresumes, -, -, hkeeps⟩ := resumeStep_resumes hstep
    rw [hresumes]
    obtain ⟨-, rfl, hmine⟩ | ⟨-, hother⟩ := getElem?_set_of moved hi hk
    · exact ⟨moved, hmine, hkeeps s hs⟩
    · exact ⟨call, hother, hs⟩
  | _ => exact ⟨call, (step_frame ht).resumes rfl ▸ hk, hs⟩

end Manager

end RemoteX11.Sessions
