/-
  Where does an application send its events?

  `handle_x11_connection` looks the ingress of its display up once, before it registers, and keeps the
  sender for life. The ack of a resume replaces the ingress of the display, so an application that was
  connected before goes on sending to the relay of the transport that is gone
  (`resume_leaves_application_behind`).

  Every registered connection sends to the registered ingress as long as an ack finds no application
  of its display with the ingress of another client (`Followed`); and the ingress is the owner's when
  acks come in the order in which the owner changed.
-/
import RemoteX11.Sessions.Manager
import RemoteX11.Lib.Calls

namespace RemoteX11.Sessions

open RemoteX11.Lib RemoteX11.Protocol

/-- The application holds an ingress and has not ended. -/
def AppPhase.attachedToRelay : AppPhase → Bool
  | .attached | .inserting | .listing | .registered => true
  | _ => false

namespace Manager

/-- The registration of the ingress of a client, next after its create or resume call has returned. -/
def acks (m : Manager) : Action → Option (DisplayNumber × String)
  | .createStep i _ _ =>
    match m.creates[i]? with
    | some ⟨disp, _, _, client, .returnedOk _⟩ => some (disp, client)
    | _ => none
  | .resumeStep i =>
    match m.resumes[i]? with
    | some ⟨_, client, .returnedOk session⟩ => some (session.display, client)
    | _ => none
  | _ => none

/-- An ingress is registered only for the owner of the display's session, and only while every
    application of the display that holds an ingress holds this one. -/
def Followed (m : Manager) (a : Action) : Prop :=
  ∀ x ∈ m.acks a,
    (∀ app ∈ m.apps, app.display = x.1 → app.phase.attachedToRelay = true → app.relay = some x.2) ∧
    ∀ s ∈ m.sessions.get x.1, s.clientId = x.2

instance (m : Manager) (a : Action) : Decidable (Followed m a) :=
  inferInstanceAs (Decidable (∀ x ∈ m.acks a, _ ∧ _))

/-- A create or resume call has set the owner of the display and has yet to register the ingress. -/
def Acking (m : Manager) (disp : DisplayNumber) : Prop :=
  (∃ call ∈ m.creates, call.display = disp ∧ ∃ s, call.phase = .returnedOk s) ∨
    ∃ call ∈ m.resumes, ∃ s : Session, s.display = disp ∧
      (call.phase = .cancelling s ∨ call.phase = .returnedOk s)

/-- Every application that holds an ingress and has not ended, registered or on its way, sends its events
    to the ingress that is registered for its display. -/
def SendsToIngress (m : Manager) : Prop :=
  ∀ app ∈ m.apps, app.phase.attachedToRelay = true → ∀ r, m.connToRelay.get app.display = some r →
    app.relay = some r

/-- Unless an ack is on its way, the registered ingress is the one of the session's owner. -/
def IngressOfOwner (m : Manager) : Prop :=
  ∀ disp s r, m.sessions.get disp = some s → m.connToRelay.get disp = some r →
    r = s.clientId ∨ m.Acking disp

structure IngressInv (m : Manager) : Prop where
  keys : ∀ disp s, m.sessions.get disp = some s → s.display = disp
  sends : SendsToIngress m
  owner : IngressOfOwner m

variable {m t : Manager} {i : Nat} {disp : DisplayNumber}

/-! ## One step -/

/-- A step that registers no ingress and makes nobody the owner. -/
theorem IngressInv.of_less (h : IngressInv m)
    (hsessions : ∀ disp s, t.sessions.get disp = some s → m.sessions.get disp = some s)
    (hrelay : ∀ disp r, t.connToRelay.get disp = some r → m.connToRelay.get disp = some r)
    (happs : t.apps = m.apps) (hacking : ∀ disp, m.Acking disp → t.Acking disp) : IngressInv t where
  keys disp s hs := h.keys disp s (hsessions disp s hs)
  sends app happ hp r hr := h.sends app (happs ▸ happ) hp r (hrelay _ r hr)
  owner disp s r hs hr :=
    (h.owner disp s r (hsessions disp s hs) (hrelay disp r hr)).imp_right (hacking disp)

/-- The ack of a call. -/
theorem IngressInv.ack {client : String} (h : IngressInv m)
    (hfollowed : (∀ app ∈ m.apps, app.display = disp → app.phase.attachedToRelay = true →
      app.relay = some client) ∧ ∀ s ∈ m.sessions.get disp, s.clientId = client)
    (hsessions : t.sessions = m.sessions) (hrelay : t.connToRelay = m.connToRelay.put disp client)
    (happs : t.apps = m.apps) (hacking : ∀ d, d ≠ disp → m.Acking d → t.Acking d) :
    IngressInv t where
  keys := by
    rw [hsessions]
    exact h.keys
  sends app happ hp r hr := by
    rw [happs] at happ
    rw [hrelay, Table.get_put] at hr
    split at hr
    · rename_i hd
      rw [hfollowed.1 app happ hd hp, hr]
    · exact h.sends app happ hp r hr
  owner d s r hs hr := by
    rw [hsessions] at hs
    rw [hrelay, Table.get_put] at hr
    split at hr
    · rename_i hd
      rw [hd] at hs
      exact .inl ((Option.some.inj hr).symm.trans (hfollowed.2 s hs).symm)
    · rename_i hd
      exact (h.owner d s r hs hr).imp_right (hacking d hd)

/-- A session gets a new owner, whose ack is on its way. -/
theorem IngressInv.setOwner (h : IngressInv m) (s₀ : Session)
    (hsessions : t.sessions = m.sessions.put s₀.display s₀)
    (hrelay : t.connToRelay = m.connToRelay) (happs : t.apps = m.apps)
    (hacking : t.Acking s₀.display) (hothers : ∀ d, m.Acking d → t.Acking d) : IngressInv t where
  keys d s hs := by
    rw [hsessions, Table.get_put] at hs
    split at hs
    · rename_i hd
      rw [← Option.some.inj hs, hd]
    · exact h.keys d s hs
  sends := by
    unfold SendsToIngress
    rw [happs, hrelay]
    exact h.sends
  owner d s r hs hr := by
    rw [hsessions, Table.get_put] at hs
    rw [hrelay] at hr
    split at hs
    · rename_i hd
      rw [hd]
      exact .inr hacking
    · exact (h.owner d s r hs hr).imp_right (hothers d)

/-- An application moves on; an ingress that it takes is the registered one. -/
theorem IngressInv.setApp {app app' : App} (h : IngressInv m) (hi : m.apps[i]? = some app)
    (hnew : app'.phase.attachedToRelay = true →
      (app.phase.attachedToRelay = true ∧ app'.relay = app.relay ∧ app'.display = app.display) ∨
        m.connToRelay.get app'.display = app'.relay)
    (hsessions : t.sessions = m.sessions) (hrelay : t.connToRelay = m.connToRelay)
    (happs : t.apps = m.apps.set i app') (hcreates : t.creates = m.creates)
    (hresumes : t.resumes = m.resumes) : IngressInv t where
  keys := by
    rw [hsessions]
    exact h.keys
  sends a ha hp r hr := by
    rw [happs] at ha
    rw [hrelay] at hr
    rcases List.mem_or_eq_of_mem_set ha with ha | rfl
    · exact h.sends a ha hp r hr
    · rcases hnew hp with ⟨hp', hsame, hdisp⟩ | htaken
      · rw [hsame]
        exact h.sends app (List.mem_of_getElem? hi) hp' r (hdisp ▸ hr)
      · exact htaken.symm.trans hr
  owner := by
    unfold IngressOfOwner Acking
    rw [hsessions, hrelay, hcreates, hresumes]
    exact h.owner

theorem createStep_ingressInv {call : CreateCall} {failure : Option String} {id : SessionId}
    (h : IngressInv m) (hg : Followed m (.createStep i failure id)) (hi : m.creates[i]? = some call)
    (ht : m.createStep i call failure id = some t) : IngressInv t := by
  obtain ⟨hlt, -⟩ := List.getElem?_eq_some_iff.mp hi
  have hkeep : ∀ call' : CreateCall, t.creates = m.creates.set i call' → t.resumes = m.resumes →
      (∀ s, call.phase ≠ .returnedOk s) → ∀ d, m.Acking d → t.Acking d := by
    intro call' hcreates hresumes hp d hd
    unfold Acking
    rw [hcreates, hresumes]
    refine hd.imp_left fun hd => ?_
    rcases exists_mem_set call' hi hd with hd | ⟨-, s, hs⟩
    · exact hd
    · exact absurd hs (hp s)
  cases createStep_cases ht with
  | insert hp hsession hfresh =>
    exact h.setOwner ⟨id, call.display, call.authName, call.authData, call.clientId⟩ rfl rfl rfl
      (.inl ⟨_, List.mem_set hlt _, rfl, _, rfl⟩) (hkeep _ rfl rfl (by simp [hp]))
  | @ack session hp =>
    have hack : m.acks (.createStep i failure id) = some (call.display, call.clientId) := by
      obtain ⟨d, name, data, client, phase⟩ := call
      subst hp
      simp only [acks, hi]
    refine h.ack (hg _ hack) rfl rfl rfl fun d hd hacking => ?_
    refine hacking.imp_left fun hacking => ?_
    rcases exists_mem_set { call with phase := .acked session } hi hacking with hacking | ⟨hcd, -⟩
    · exact hacking
    · exact absurd hcd.symm hd
  | unwind hp | unbindInUse hp =>
    rw [unbindDisplay_frame] at hkeep ⊢
    exact h.of_less (fun _ _ hs => hs) (fun _ _ hr => hr) rfl (hkeep _ rfl rfl (by simp [hp]))
  | choose hp | taken hp | unbound hp | bind hp | list hp | reject hp | install hp | inUse hp
  | removeInUse hp =>
    exact h.of_less (fun _ _ hs => hs) (fun _ _ hr => hr) rfl (hkeep _ rfl rfl (by simp [hp]))

theorem resumeStep_ingressInv {call : ResumeCall} (h : IngressInv m)
    (hg : Followed m (.resumeStep i)) (hi : m.resumes[i]? = some call)
    (ht : m.resumeStep i call = some t) : IngressInv t := by
  obtain ⟨hlt, -⟩ := List.getElem?_eq_some_iff.mp hi
  have hkeep : ∀ call' : ResumeCall, t.creates = m.creates → t.resumes = m.resumes.set i call' →
      (∀ s, call.phase = .cancelling s ∨ call.phase = .returnedOk s →
        call'.phase = .cancelling s ∨ call'.phase = .returnedOk s) →
      ∀ d, m.Acking d → t.Acking d := by
    intro call' hcreates hresumes hp d hd
    unfold Acking
    rw [hcreates, hresumes]
    refine hd.imp_right fun hd => ?_
    rcases exists_mem_set call' hi hd with hd | ⟨s, hsd, hs⟩
    · exact hd
    · exact ⟨call', List.mem_set hlt _, s, hsd, hp s hs⟩
  cases resumeStep_cases ht with
  | @find session hp hfind =>
    exact h.setOwner { session with clientId := call.clientId } rfl rfl rfl
      (.inr ⟨_, List.mem_set hlt _, _, rfl, .inl rfl⟩) (hkeep _ rfl rfl (by simp [hp]))
  | missing hp =>
    exact h.of_less (fun _ _ hs => hs) (fun _ _ hr => hr) rfl (hkeep _ rfl rfl (by simp [hp]))
  | cancel hp | noGrace hp =>
    -- the ack is still to come
    exact h.of_less (fun _ _ hs => hs) (fun _ _ hr => hr) rfl
      (hkeep _ rfl rfl (by simp [hp]))
  | @ack session hp =>
    have hack : m.acks (.resumeStep i) = some (session.display, call.clientId) := by
      obtain ⟨rid, client, phase⟩ := call
      subst hp
      simp only [acks, hi]
    refine h.ack (hg _ hack) rfl rfl rfl fun d hd hacking => ?_
    refine hacking.imp_right fun hacking => ?_
    rcases exists_mem_set { call with phase := .acked session } hi hacking with
      hacking | ⟨s, hsd, hs⟩
    · exact hacking
    · have hss : s = session := by simpa [hp, eq_comm] using hs
      exact absurd (hss ▸ hsd).symm hd

theorem destroyStep_ingressInv {call : DestroyCall} (h : IngressInv m)
    (ht : m.destroyStep i call = some t) : IngressInv t := by
  have hsame : ∀ d, m.Acking d → t.Acking d := by
    rw [destroyStep_frame ht]
    exact fun d hd => hd
  have happs : t.apps = m.apps := by rw [destroyStep_frame ht]
  cases destroyStep_cases ht with
  | removeRelay hp =>
    exact h.of_less (fun _ _ hs => hs) (fun _ _ hr => Table.get_of_get_remove hr) happs hsame
  | removeSession hp =>
    exact h.of_less (fun _ _ hs => Table.get_of_get_remove hs) (fun _ _ hr => hr) happs hsame
  | unbind hp =>
    rw [unbindDisplay_frame] at happs hsame ⊢
    exact h.of_less (fun _ _ hs => hs) (fun _ _ hr => hr) happs hsame
  | cancel hp | noGrace hp | take hp | noConns hp | close hp | removeCookie hp =>
    exact h.of_less (fun _ _ hs => hs) (fun _ _ hr => hr) happs hsame

theorem appStep_ingressInv {app : App} (h : IngressInv m) (hi : m.apps[i]? = some app)
    (ht : m.appStep i app = some t) : IngressInv t := by
  rcases appStep_cases ht with ⟨relay, hp, hrelay, rfl⟩ | ⟨error, hp, rfl⟩ | ⟨hp, -, rfl⟩ |
    ⟨hp, -, rfl⟩ | ⟨hp, rfl⟩
  · exact h.setApp hi (fun _ => .inr hrelay) rfl rfl rfl rfl rfl
  all_goals
    refine h.setApp hi ?_ rfl rfl rfl rfl rfl
    exact fun _ => .inl ⟨by rw [hp]; rfl, rfl, rfl⟩

theorem appEnd_ingressInv {app : App} (h : IngressInv m) (hi : m.apps[i]? = some app)
    (ht : m.appEnd i app = some t) : IngressInv t := by
  rcases appEnd_cases ht with ⟨-, rfl⟩ | ⟨-, rfl⟩ <;>
    exact h.setApp hi (fun hp => Bool.noConfusion hp) rfl rfl rfl rfl rfl

theorem step_ingressInv {a : Action} (h : IngressInv m) (hg : Followed m a)
    (ht : m.step a = some t) : IngressInv t := by
  cases a with
  | create disp authName authData client | createAuto authName authData client =>
    obtain rfl := Option.some.inj ht
    refine h.of_less (fun _ _ hs => hs) (fun _ _ hr => hr) rfl fun d hd => ?_
    exact hd.imp_left fun ⟨call, hcall, hp⟩ => ⟨call, List.mem_append_left _ hcall, hp⟩
  | resume id client =>
    obtain rfl := Option.some.inj ht
    refine h.of_less (fun _ _ hs => hs) (fun _ _ hr => hr) rfl fun d hd => ?_
    exact hd.imp_right fun ⟨call, hcall, hp⟩ => ⟨call, List.mem_append_left _ hcall, hp⟩
  | createStep j failure id =>
    obtain ⟨call, hj, ht⟩ := Option.bind_eq_some_iff.mp ht
    exact createStep_ingressInv h hg hj ht
  | resumeStep j =>
    obtain ⟨call, hj, ht⟩ := Option.bind_eq_some_iff.mp ht
    exact resumeStep_ingressInv h hg hj ht
  | destroyStep j =>
    obtain ⟨call, -, ht⟩ := Option.bind_eq_some_iff.mp ht
    exact destroyStep_ingressInv h ht
  | appStep j =>
    obtain ⟨app, hj, ht⟩ := Option.bind_eq_some_iff.mp ht
    exact appStep_ingressInv h hj ht
  | appEnd j =>
    obtain ⟨app, hj, ht⟩ := Option.bind_eq_some_iff.mp ht
    exact appEnd_ingressInv h hj ht
  | accept port c =>
    obtain ⟨handle, -, rfl⟩ := Option.map_eq_some_iff.mp ht
    exact ⟨h.keys, forall_mem_snoc h.sends fun hp => Bool.noConfusion hp, h.owner⟩
  | destroy disp =>
    obtain rfl := Option.some.inj ht
    exact ⟨h.keys, h.sends, h.owner⟩
  | release client =>
    obtain rfl := Option.some.inj ht
    rw [release_frame]
    exact ⟨h.keys, h.sends, h.owner⟩
  | graceStep j =>
    obtain ⟨task, -, ht⟩ := Option.bind_eq_some_iff.mp ht
    rw [graceStep_frame ht]
    exact ⟨h.keys, h.sends, h.owner⟩
  | unregister c =>
    obtain ⟨-, rfl⟩ := step_unregister ht
    exact ⟨h.keys, h.sends, h.owner⟩
  | unregisterStep j =>
    obtain ⟨call, -, ht⟩ := Option.bind_eq_some_iff.mp ht
    rw [unregisterStep_frame ht]
    exact ⟨h.keys, h.sends, h.owner⟩
  | unregisterRelay disp =>
    obtain rfl := Option.some.inj ht
    exact h.of_less (fun _ _ hs => hs) (fun _ _ hr => Table.get_of_get_remove hr) rfl fun _ hd => hd

theorem init_ingressInv : IngressInv init where
  keys _ _ h := nomatch h
  sends _ h := absurd h List.not_mem_nil
  owner _ _ _ h := nomatch h

/-! ## Every run -/

/-- **The events of an application reach the relay of the owner.** In every run in which ingresses are
    registered as `Followed` asks, every application that has attached and not ended, its connection
    registered or about to be, sends to the ingress registered for its display, which is the owner's
    unless the ack of a new owner is on its way. -/
theorem events_reach_registered_ingress {as : List Action} (hmeets : Meets step Followed init as)
    (hrun : run step init as = some m) : SendsToIngress m ∧ IngressOfOwner m := by
  have hinv : IngressInv m :=
    run_inv (fun m a t h hg ht => step_ingressInv h hg ht) init_ingressInv hmeets hrun
  exact ⟨hinv.sends, hinv.owner⟩

/-- An application connects before the client resumes its session and another one after it, on the
    same transport. -/
def resumedOnOneTransport : List Action :=
  createCall 0 ⟨3⟩ ⟨"a"⟩ "alice" ++ connectCall 0 ⟨3⟩ ⟨1⟩ ++
    .resume ⟨"a"⟩ "alice" :: List.replicate 3 (.resumeStep 0) ++ connectCall 1 ⟨3⟩ ⟨2⟩

theorem events_reach_registered_ingress_oneTransport :
    ∃ m, run step init resumedOnOneTransport = some m ∧
      m.apps.map (fun app => (app.phase, app.relay)) =
        [(.registered, some "alice"), (.registered, some "alice")] ∧
      SendsToIngress m ∧ IngressOfOwner m := by
  have hlast : ∃ m ∈ run step init resumedOnOneTransport,
      m.apps.map (fun app => (app.phase, app.relay)) =
        [(.registered, some "alice"), (.registered, some "alice")] := by decide +kernel
  obtain ⟨m, hm, happs⟩ := hlast
  have hmeets : Meets step Followed init resumedOnOneTransport := by decide +kernel
  exact ⟨m, hm, happs, events_reach_registered_ingress hmeets hm⟩

/-- The transport of `alice` is lost, its sessions are released, and the client resumes the session on
    a new transport within the grace period. -/
def resumedOnNewTransport : List Action :=
  createCall 0 ⟨3⟩ ⟨"a"⟩ "alice" ++ connectCall 0 ⟨3⟩ ⟨1⟩ ++
    .release "alice" :: .resume ⟨"a"⟩ "bob" :: List.replicate 3 (.resumeStep 0)

/-- The connection is registered, the session and the ingress of its display are those of the new
    transport, and the application sends to the old one. -/
theorem resume_leaves_application_behind :
    ∃ m, run step init resumedOnNewTransport = some m ∧ ¬ SendsToIngress m ∧
      m.ownsConnection ⟨1⟩ "bob" = true ∧ m.connToRelay.get ⟨3⟩ = some "bob" ∧
      m.apps.map (fun app => (app.connectionId, app.phase, app.relay)) =
        [(⟨1⟩, .registered, some "alice")] := by
  have hlast : ∃ m ∈ run step init resumedOnNewTransport,
      (∃ app ∈ m.apps, app.phase.attachedToRelay = true ∧
        m.connToRelay.get app.display = some "bob" ∧ app.relay ≠ some "bob") ∧
      m.ownsConnection ⟨1⟩ "bob" = true ∧ m.connToRelay.get ⟨3⟩ = some "bob" ∧
      m.apps.map (fun app => (app.connectionId, app.phase, app.relay)) =
        [(⟨1⟩, .registered, some "alice")] := by decide +kernel
  obtain ⟨m, hm, ⟨app, happ, hp, hrelay, hne⟩, hrest⟩ := hlast
  exact ⟨m, hm, fun hsends => hne (hsends app happ hp "bob" hrelay), hrest⟩

end Manager

end RemoteX11.Sessions
