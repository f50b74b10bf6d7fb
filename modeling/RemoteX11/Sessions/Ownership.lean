/-
  Who may talk to an application?

  `owns_connection` and `route_to_x11` go from the connection to its display number and from there to the
  session that has this number now. A number is used again, so an application that outlives its
  session belongs to whoever creates the next one on its display (`late_registration_changes_owner`).

  An application came through the accept loop of one create call. While it is on its way, or registered,
  its display must stay with that call: held by it, with the session it returned, or being dismantled
  (`Standing`). That is so when no application is between its accept and its registration while
  `destroy_session` takes the connections of its display, and none is left behind by a create call that
  fails (`Attended`).
-/
import RemoteX11.Sessions.Connections
import RemoteX11.Sessions.Resources

namespace RemoteX11.Sessions

open RemoteX11.Lib RemoteX11.Protocol

/-- On its way from the accept to the end of its registration. -/
def AppPhase.live : AppPhase → Bool
  | .accepted | .attached | .inserting | .listing => true
  | _ => false

/-- The session that the call has returned. -/
def CreatePhase.session : CreatePhase → Option Session
  | .returnedOk session | .acked session => some session
  | _ => none

/-- `xauth add` has failed; the port is given up next. -/
def CreatePhase.givesUp : CreatePhase → Bool
  | .unwinding _ => true
  | _ => false

/-- The session has been found and has its new owner. -/
def ResumePhase.found : ResumePhase → Bool
  | .cancelling _ | .returnedOk _ | .acked _ => true
  | _ => false

/-- The connections of the display have been taken off their list. -/
def DestroyPhase.emptied : DestroyPhase → Bool
  | .closing _ | .xauthRemove | .removeRelay | .removeSession => true
  | _ => false

namespace Manager

/-- The application is on its way or registered. -/
def Present (m : Manager) (app : App) : Prop :=
  app.phase.live = true ∨ m.connections.get app.connectionId = some app.display

instance (m : Manager) (app : App) : Decidable (m.Present app) := inferInstanceAs (Decidable (_ ∨ _))

/-- The `i`-th create call has returned the session with this id. -/
def Admitted (m : Manager) (i : Nat) (id : SessionId) : Prop :=
  ∃ call session, m.creates[i]? = some call ∧ call.phase.session = some session ∧ session.id = id

/-- The client has resumed the session with this id. -/
def ResumedBy (m : Manager) (id : SessionId) (client : String) : Prop :=
  ∃ call ∈ m.resumes, call.id = id ∧ call.clientId = client ∧ call.phase.found = true

/-- No application is left between two sessions of its display: ports are reported under their own
    number, a create call that fails has no application present, and `destroy_session` takes the
    connections of a display only when no application of it is on its way. -/
def NoneLeft (m : Manager) : Action → Prop
  | .accept port _ => listenerDisplay port = port
  | .createStep i _ _ => ∀ call ∈ m.creates[i]?, call.phase.givesUp = true →
      ∀ app ∈ m.apps, app.origin = i → ¬ m.Present app
  | .destroyStep i => ∀ call ∈ m.destroys[i]?, call.phase = .takeConns →
      ∀ app ∈ m.apps, app.display = call.display → app.phase.live = false
  | _ => True

instance (m : Manager) : (a : Action) → Decidable (NoneLeft m a)
  | .accept port _ => inferInstanceAs (Decidable (listenerDisplay port = port))
  | .createStep i _ _ => inferInstanceAs (Decidable (∀ call ∈ m.creates[i]?,
      call.phase.givesUp = true → ∀ app ∈ m.apps, app.origin = i → ¬ m.Present app))
  | .destroyStep i => inferInstanceAs (Decidable (∀ call ∈ m.destroys[i]?,
      call.phase = .takeConns → ∀ app ∈ m.apps, app.display = call.display → app.phase.live = false))
  | .create .. | .createAuto .. | .resume .. | .resumeStep _ | .destroy _ | .release _
  | .graceStep _ | .appStep _ | .appEnd _ | .unregister _ | .unregisterStep _
  | .unregisterRelay _ => .isTrue trivial

/-- Creating and destroying do not overlap on a display, ids are not drawn twice, and no application is
    left between two sessions. -/
def Attended (m : Manager) (a : Action) : Prop := Exclusive m a ∧ FreshId m a ∧ NoneLeft m a

instance (m : Manager) (a : Action) : Decidable (Attended m a) :=
  inferInstanceAs (Decidable (_ ∧ _ ∧ _))

/-! ## The invariant -/

/-- The display of a present application is with the create call it came through. -/
structure Standing (m : Manager) (app : App) : Prop where
  held : ∀ j call, m.creates[j]? = some call → call.phase.holds = true →
    call.display = app.display → app.origin = j
  session : ∀ s, m.sessions.get app.display = some s → m.Admitted app.origin s.id
  somebody : ¬ m.Unheld app.display ∨ (m.sessions.get app.display).isSome = true ∨
    ¬ m.Undisturbed app.display
  leaving : ∀ call ∈ m.destroys, call.display = app.display → call.phase.emptied = true →
    app.phase.live = false ∧ m.Taken app.connectionId app.display

structure OwnerInv (m : Manager) : Prop where
  standing : ∀ app ∈ m.apps, m.Present app → Standing m app
  port : ∀ disp i s, m.ports.get disp = some i → m.sessions.get disp = some s → m.Admitted i s.id

variable {m t : Manager} {i : Nat} {app : App}

theorem Standing.of (h : Standing m app)
    (hheld : ∀ (j : Nat) (call : CreateCall), t.creates[j]? = some call → call.phase.holds = true →
      call.display = app.display → ∃ call', m.creates[j]? = some call' ∧
        call'.phase.holds = true ∧ call'.display = app.display)
    (hsession : ∀ s, t.sessions.get app.display = some s →
      ∃ s', m.sessions.get app.display = some s' ∧ s'.id = s.id)
    (hadmitted : ∀ id, m.Admitted app.origin id → t.Admitted app.origin id)
    (hsomebody : ¬ t.Unheld app.display ∨ (t.sessions.get app.display).isSome = true ∨
      ¬ t.Undisturbed app.display)
    (hleaving : ∀ call ∈ t.destroys, call.display = app.display → call.phase.emptied = true →
      app.phase.live = false ∧ t.Taken app.connectionId app.display) : Standing t app where
  held j call hj hp hd := by
    obtain ⟨call', hj', hp', hd'⟩ := hheld j call hj hp hd
    exact h.held j call' hj' hp' hd'
  session s hs := by
    obtain ⟨s', hs', hid⟩ := hsession s hs
    exact hadmitted _ (hid ▸ h.session s' hs')
  somebody := hsomebody
  leaving := hleaving

/-- The same application later on its way. -/
theorem Standing.moved {app' : App} (h : Standing m app) (hid : app'.connectionId = app.connectionId)
    (hdisp : app'.display = app.display) (horigin : app'.origin = app.origin)
    (hlive : app'.phase.live = true → app.phase.live = true) : Standing m app' where
  held := by
    rw [hdisp, horigin]
    exact h.held
  session := by
    rw [hdisp, horigin]
    exact h.session
  somebody := by
    rw [hdisp]
    exact h.somebody
  leaving := by
    rw [hdisp, hid]
    intro call hcall hd hp
    obtain ⟨hnot, htaken⟩ := h.leaving call hcall hd hp
    refine ⟨?_, htaken⟩
    rw [← Bool.not_eq_true] at hnot ⊢
    exact fun hl => hnot (hlive hl)

/-! ## Steps of a create call -/

theorem Admitted.set {call call' : CreateCall} {h : Nat} {id : SessionId} (hm : m.Admitted h id)
    (hi : m.creates[i]? = some call) (hcreates : t.creates = m.creates.set i call')
    (hsession : ∀ s, call.phase.session = some s → call'.phase.session = some s) :
    t.Admitted h id := by
  obtain ⟨c, s, hc, hs, hid⟩ := hm
  obtain ⟨-, rfl, hmine⟩ | ⟨-, hother⟩ := getElem?_set_of call' hi hc
  · exact ⟨call', s, hcreates ▸ hmine, hsession s hs, hid⟩
  · exact ⟨c, s, hcreates ▸ hother, hs, hid⟩

/-- A step of a create call that neither takes nor releases the display of the application. -/
theorem Standing.create {call call' : CreateCall} (h : Standing m app)
    (hi : m.creates[i]? = some call) (hcreates : t.creates = m.creates.set i call')
    (hdestroys : t.destroys = m.destroys)
    (hsessions : t.sessions.get app.display = m.sessions.get app.display)
    (hsession : ∀ s, call.phase.session = some s → call'.phase.session = some s)
    (hsame : (call.phase.holds = true ∧ call.display = app.display) ↔
      (call'.phase.holds = true ∧ call'.display = app.display)) : Standing t app := by
  obtain ⟨hlt, -⟩ := List.getElem?_eq_some_iff.mp hi
  have hmine : t.creates[i]? = some call' := by
    rw [hcreates]
    exact List.getElem?_set_self hlt
  have hother : ∀ j, j ≠ i → t.creates[j]? = m.creates[j]? := by
    intro j hj
    rw [hcreates, List.getElem?_set_ne hj.symm]
  refine h.of ?_ ?_ (fun id hid => hid.set hi hcreates hsession) ?_ ?_
  · intro j c hj hp hd
    by_cases hji : j = i
    · subst hji
      obtain rfl := Option.some.inj (hmine.symm.trans hj)
      obtain ⟨hp', hd'⟩ := hsame.mpr ⟨hp, hd⟩
      exact ⟨call, hi, hp', hd'⟩
    · exact ⟨c, (hother j hji).symm.trans hj, hp, hd⟩
  · intro s hs
    exact ⟨s, hsessions ▸ hs, rfl⟩
  · rcases h.somebody with hheld | hsome | hdis
    · refine .inl fun hunheld => hheld fun c hc hd => ?_
      obtain ⟨j, hj⟩ := List.mem_iff_getElem?.mp hc
      by_cases hji : j = i
      · subst hji
        obtain rfl := Option.some.inj (hi.symm.trans hj)
        by_contra hp
        obtain ⟨hp', hd'⟩ := hsame.mp ⟨by simpa using hp, hd⟩
        rw [hunheld call' (List.mem_of_getElem? hmine) hd'] at hp'
        contradiction
      · exact hunheld c (List.mem_of_getElem? ((hother j hji).trans hj)) hd
    · exact .inr (.inl (hsessions ▸ hsome))
    · unfold Undisturbed at hdis ⊢
      rw [hdestroys]
      exact .inr (.inr hdis)
  · unfold Taken
    rw [hdestroys]
    exact h.leaving

/-- No application is present on a display that is free. -/
theorem Standing.not_free (h : Standing m app) (hu : m.Unheld app.display)
    (hs : m.sessions.get app.display = none) (hd : m.Undisturbed app.display) : False := by
  rcases h.somebody with hheld | hsome | hdis
  · exact hheld hu
  · rw [hs] at hsome
    contradiction
  · exact hdis hd

/-- Before a port is bound its display is free. -/
theorem ResourceInv.free_of_bind {call : CreateCall} {failure : Option String} {id : SessionId}
    (h : ResourceInv m) (hg : Exclusive m (.createStep i failure id))
    (hi : m.creates[i]? = some call) (hp : call.phase = .binding) (hok : failure = none)
    (hport : m.ports.get call.display = none) :
    m.Unheld call.display ∧ m.sessions.get call.display = none ∧ m.Undisturbed call.display := by
  have hundisturbed : m.Undisturbed call.display := hg call hi hp hok
  have hunheld : m.Unheld call.display := by
    intro c hc hcd
    obtain ⟨j, hj⟩ := List.mem_iff_getElem?.mp hc
    by_contra hholds
    have hbound := (h.held j c hj (by simpa using hholds)).port
    rw [hcd, hport] at hbound
    contradiction
  have hsettled := h.settled _ hunheld hundisturbed
  have hbound := hsettled.bound
  rw [← hsettled.port, hport] at hbound
  exact ⟨hunheld, Option.isNone_iff_eq_none.mp (by simpa using hbound), hundisturbed⟩

theorem createStep_ownerInv {call : CreateCall} {failure : Option String} {id : SessionId}
    (h : OwnerInv m) (hres : ResourceInv m) (hg : Attended m (.createStep i failure id))
    (hi : m.creates[i]? = some call) (ht : m.createStep i call failure id = some t) :
    OwnerInv t := by
  obtain ⟨hexclusive, -, hleft⟩ := hg
  cases createStep_cases ht with
  | choose hp | taken hp | unbound hp =>
    refine ⟨fun app happ hpresent => ?_, fun disp j s hport hs => ?_⟩
    · refine (h.standing app happ hpresent).create hi rfl rfl rfl ?_ ?_
      · simp [hp, CreatePhase.session]
      · simp [hp, CreatePhase.holds]
    · exact (h.port disp j s hport hs).set hi rfl (by simp [hp, CreatePhase.session])
  | ack hp =>
    refine ⟨fun app happ hpresent => ?_, fun disp j s hport hs => ?_⟩
    · refine (h.standing app happ hpresent).create hi rfl rfl rfl ?_ ?_
      · simp [hp, CreatePhase.session]
      · simp [hp, CreatePhase.holds]
    · exact (h.port disp j s hport hs).set hi rfl (by simp [hp, CreatePhase.session])
  | bind hp hok hport =>
    obtain ⟨hunheld, hnone, hundisturbed⟩ := hres.free_of_bind hexclusive hi hp hok hport
    refine ⟨fun app happ hpresent => ?_, fun disp j s hbound hs => ?_⟩
    · have hstanding := h.standing app happ hpresent
      have hne : call.display ≠ app.display := by
        intro hd
        exact hstanding.not_free (hd ▸ hunheld) (hd ▸ hnone) (hd ▸ hundisturbed)
      refine hstanding.create hi rfl rfl rfl ?_ ?_
      · simp [hp, CreatePhase.session]
      · simp [hne]
    · change (m.ports.put call.display i).get disp = some j at hbound
      rw [Table.get_put] at hbound
      split at hbound
      · rename_i hd
        change m.sessions.get disp = some s at hs
        rw [hd, hnone] at hs
        contradiction
      · exact (h.port disp j s hbound hs).set hi rfl (by simp [hp, CreatePhase.session])
  | list hp | reject hp | install hp =>
    refine ⟨fun app happ hpresent => ?_, fun disp j s hport hs => ?_⟩
    · refine (h.standing app happ hpresent).create hi rfl rfl rfl ?_ ?_
      · simp [hp, CreatePhase.session]
      · simp [hp, CreatePhase.holds]
    · exact (h.port disp j s hport hs).set hi rfl (by simp [hp, CreatePhase.session])
  | @unwind e error hp =>
    -- nobody who came through this call is left
    have hheld := hres.held i call hi (by rw [hp]; rfl)
    have hcreates : ((m.unbindDisplay call.display).setCreate i call (.returnedErr error)).creates =
        m.creates.set i { call with phase := .returnedErr error } := by
      rw [unbindDisplay_frame]
      rfl
    have hport : m.ports.get call.display = m.listeners.get call.display := by
      rw [hheld.port, hheld.listener, if_neg (by simp [hp])]
    refine ⟨fun app happ hpresent => ?_, fun disp j s hbound hs => ?_⟩
    · rw [unbindDisplay_frame] at happ hpresent
      have hstanding := h.standing app happ hpresent
      have hne : call.display ≠ app.display := by
        intro hd
        have horigin := hstanding.held i call hi (by rw [hp]; rfl) hd
        exact hleft call hi (by rw [hp]; rfl) app happ horigin hpresent
      refine hstanding.create hi hcreates ?_ ?_ ?_ ?_
      · rw [unbindDisplay_frame]
        rfl
      · rw [unbindDisplay_frame]
        rfl
      · simp [hp, CreatePhase.session]
      · simp [hne]
    · change (m.unbindDisplay call.display).ports.get disp = some j at hbound
      change (m.unbindDisplay call.display).sessions.get disp = some s at hs
      rw [unbindDisplay_ports hport] at hbound
      rw [unbindDisplay_frame] at hs
      split at hbound
      · contradiction
      · exact (h.port disp j s hbound hs).set hi hcreates (by simp [hp, CreatePhase.session])
  | insert hp hsession hfresh =>
    have hholds : call.phase.holds = true := by rw [hp]; rfl
    have hheld := hres.held i call hi hholds
    obtain ⟨hlt, -⟩ := List.getElem?_eq_some_iff.mp hi
    have hmine : ∀ s, (m.creates.set i { call with phase := .returnedOk s })[i]? =
        some { call with phase := .returnedOk s } := fun s => List.getElem?_set_self hlt
    have hsessions := Table.get_put m.sessions call.display
    refine ⟨fun app happ hpresent => ?_, fun disp j s hbound hs => ?_⟩
    · have hstanding := h.standing app happ hpresent
      by_cases hd : call.display = app.display
      · have horigin := hstanding.held i call hi hholds hd
        refine ⟨fun j c hj hcp hcd => ?_, fun s hs => ?_, .inr (.inl ?_), hstanding.leaving⟩
        · by_cases hji : j = i
          · exact horigin.trans hji.symm
          · have hj' := (List.getElem?_set_ne (Ne.symm hji)).symm.trans hj
            rw [hres.sole hi hholds j c hj' hji (hcd.trans hd.symm)] at hcp
            contradiction
        · have hget := (hsessions app.display _).symm.trans hs
          rw [if_pos hd.symm] at hget
          rw [horigin]
          exact ⟨_, _, hmine _, rfl, congrArg Session.id (Option.some.inj hget)⟩
        · refine (congrArg Option.isSome (hsessions app.display _)).trans ?_
          rw [if_pos hd.symm]
          rfl
      · refine hstanding.create hi rfl rfl ?_ ?_ ?_
        · exact Table.get_put_of_ne _ _ (Ne.symm hd)
        · simp [hp, CreatePhase.session]
        · simp [hd]
    · have hget := (hsessions disp _).symm.trans hs
      split at hget
      · rename_i hd
        have hj : j = i := by
          have hport : m.ports.get disp = some j := hbound
          rw [hd, hheld.port] at hport
          exact (Option.some.inj hport).symm
        rw [hj]
        exact ⟨_, _, hmine _, rfl, congrArg Session.id (Option.some.inj hget)⟩
      · exact (h.port disp j s hbound hget).set hi rfl (by simp [hp, CreatePhase.session])
  | inUse hp hsession => exact absurd (hres.held i call hi (by rw [hp]; rfl)).session hsession
  | unbindInUse hp => exact absurd hp (hres.held i call hi (by rw [hp]; rfl)).free.1
  | removeInUse hp => exact absurd hp (hres.held i call hi (by rw [hp]; rfl)).free.2

/-! ## Steps of a destroy call -/

theorem Standing.destroy {call : DestroyCall} {phase : DestroyPhase} (h : Standing m app)
    (hi : m.destroys[i]? = some call) (hcreates : t.creates = m.creates)
    (hdestroys : t.destroys = m.destroys.set i { call with phase := phase })
    (hsessions : ∀ s, t.sessions.get app.display = some s → m.sessions.get app.display = some s)
    (hkeep : (t.sessions.get app.display).isSome = (m.sessions.get app.display).isSome ∨
      ¬ t.Undisturbed app.display)
    (hdone : phase = .done → call.display = app.display → ¬ t.Undisturbed app.display)
    (htaken : m.Taken app.connectionId app.display → t.Taken app.connectionId app.display)
    (hmine : phase.emptied = true → call.display = app.display →
      app.phase.live = false ∧ t.Taken app.connectionId app.display) : Standing t app := by
  obtain ⟨hlt, -⟩ := List.getElem?_eq_some_iff.mp hi
  have hmem : { call with phase := phase } ∈ t.destroys := by
    rw [hdestroys]
    exact List.mem_set hlt _
  refine h.of ?_ (fun s hs => ⟨s, hsessions s hs, rfl⟩) ?_ ?_ ?_
  · rw [hcreates]
    intro j c hj hp hd
    exact ⟨c, hj, hp, hd⟩
  · unfold Admitted
    rw [hcreates]
    exact fun _ => id
  · rcases h.somebody with hheld | hsome | hdis
    · unfold Unheld
      rw [hcreates]
      exact .inl hheld
    · rcases hkeep with hkeep | hdis
      · exact .inr (.inl (hkeep.trans hsome))
      · exact .inr (.inr hdis)
    · refine .inr (.inr ?_)
      by_cases hd : call.display = app.display
      · by_cases hp : phase = .done
        · exact hdone hp hd
        · exact fun hun => hp (hun _ hmem hd)
      · intro hun
        refine hdis fun c hc hcd => ?_
        rcases exists_mem_set (P := fun x => x = c) { call with phase := phase } hi ⟨c, hc, rfl⟩ with
          ⟨x, hx, rfl⟩ | rfl
        · exact hun x (hdestroys ▸ hx) hcd
        · exact absurd hcd hd
  · intro c hc hcd hp
    rw [hdestroys] at hc
    rcases List.mem_or_eq_of_mem_set hc with hc | rfl
    · obtain ⟨hnot, htk⟩ := h.leaving c hc hcd hp
      exact ⟨hnot, htaken htk⟩
    · exact hmine hp hcd

/-- A present application that is not on its way is on the list of its display, unless a `destroy_session`
    has taken it off. -/
theorem RegistryInv.listed_or_taken (h : RegistryInv m) (happ : app ∈ m.apps)
    (hpresent : m.Present app) (hlive : app.phase.live = false) :
    app.connectionId ∈ m.connsOf app.display ∨ m.Taken app.connectionId app.display := by
  rcases hpresent with hl | hget
  · rw [hlive] at hl
    contradiction
  rcases h.forward _ _ hget with hlisted | ⟨app', happ', hid, -, hp⟩ | htaken
  · exact .inl hlisted
  · obtain rfl := List.inj_on_of_nodup_map h.nodup happ' happ hid
    rw [of_decide_eq_true hp] at hlive
    contradiction
  · exact .inr htaken

/-- A `destroy_session` that takes nothing off a list leaves what was taken before. -/
theorem Taken.set {c : ConnectionId} {disp : DisplayNumber} {call : DestroyCall}
    {phase : DestroyPhase} (h : m.Taken c disp) (hi : m.destroys[i]? = some call)
    (hp : ∀ ids, call.phase ≠ .closing ids)
    (hdestroys : t.destroys = m.destroys.set i { call with phase := phase }) : t.Taken c disp := by
  unfold Taken
  rw [hdestroys]
  rcases exists_mem_set { call with phase := phase } hi h with h | ⟨-, ids, hids, -⟩
  · exact h
  · exact absurd hids (hp ids)

theorem destroyStep_ownerInv {call : DestroyCall} (h : OwnerInv m) (hres : ResourceInv m)
    (hreg : RegistryInv m) (hg : Attended m (.destroyStep i)) (hi : m.destroys[i]? = some call)
    (ht : m.destroyStep i call = some t) : OwnerInv t := by
  obtain ⟨-, -, hleft⟩ := hg
  have hcall := List.mem_of_getElem? hi
  obtain ⟨hlt, -⟩ := List.getElem?_eq_some_iff.mp hi
  cases destroyStep_cases ht with
  | cancel hp | noGrace hp =>
    refine ⟨fun app happ hpresent => ?_, h.port⟩
    exact (h.standing app happ hpresent).destroy hi rfl rfl (fun _ => id) (.inl rfl) (by simp)
      (fun htk => htk.set hi (by simp [hp]) rfl) (by simp [DestroyPhase.emptied])
  | unbind hp =>
    have hmine := hres.dismantled call hcall (by simp [hp])
    refine ⟨fun app happ hpresent => ?_, fun disp j s hbound hs => ?_⟩
    · rw [unbindDisplay_frame] at happ hpresent ⊢
      exact (h.standing app happ hpresent).destroy hi rfl rfl (fun _ => id) (.inl rfl) (by simp)
        (fun htk => htk.set hi (by simp [hp]) rfl) (by simp [DestroyPhase.emptied])
    · change (m.unbindDisplay call.display).ports.get disp = some j at hbound
      rw [unbindDisplay_ports hmine.port] at hbound
      rw [unbindDisplay_frame] at hs ⊢
      split at hbound
      · contradiction
      · exact h.port disp j s hbound hs
  | @take ids hp hids =>
    refine ⟨fun app happ hpresent => ?_, h.port⟩
    have hkeep : ∀ c disp, m.Taken c disp → ({ m with
        displayConns := m.displayConns.remove call.display }.setDestroy i call
          (.closing ids)).Taken c disp := fun c disp htk => htk.set hi (by simp [hp]) rfl
    refine (h.standing app happ hpresent).destroy hi rfl rfl (fun _ => id) (.inl rfl) (by simp)
      (hkeep _ _) fun _ hd => ?_
    have hlive := hleft call hi hp app happ hd.symm
    refine ⟨hlive, ?_⟩
    rcases hreg.listed_or_taken happ hpresent hlive with hlisted | htk
    · rw [← hd, connsOf, hids] at hlisted
      exact ⟨_, List.mem_set hlt _, hd, ids, rfl, hlisted⟩
    · exact hkeep _ _ htk
  | noConns hp hids =>
    refine ⟨fun app happ hpresent => ?_, h.port⟩
    have hkeep : ∀ c disp, m.Taken c disp → (m.setDestroy i call .xauthRemove).Taken c disp :=
      fun c disp htk => htk.set hi (by simp [hp]) rfl
    refine (h.standing app happ hpresent).destroy hi rfl rfl (fun _ => id) (.inl rfl) (by simp)
      (hkeep _ _) fun _ hd => ?_
    have hlive := hleft call hi hp app happ hd.symm
    refine ⟨hlive, ?_⟩
    rcases hreg.listed_or_taken happ hpresent hlive with hlisted | htk
    · rw [← hd, connsOf, hids] at hlisted
      contradiction
    · exact hkeep _ _ htk
  | @close ids hp hfree =>
    refine ⟨fun app happ hpresent => ?_, h.port⟩
    -- what is closed is not registered any more
    have hold : m.Present app ∧ (app.phase.live = false → app.connectionId ∉ ids) := by
      rcases hpresent with hlive | hget
      · exact ⟨.inl hlive, by simp [hlive]⟩
      · change (m.connections.removeAll ids).get app.connectionId = some app.display at hget
        rw [Table.get_removeAll] at hget
        split at hget
        · contradiction
        · exact ⟨.inr hget, fun _ => ‹_›⟩
    have hstanding := h.standing app happ hold.1
    have hkeep : m.Taken app.connectionId app.display → ({ m with
        connections := m.connections.removeAll ids }.setDestroy i call .xauthRemove).Taken
          app.connectionId app.display := by
      intro htk
      rcases exists_mem_set { call with phase := .xauthRemove } hi htk with htk | ⟨hd, ids', hids, hin⟩
      · exact htk
      · obtain ⟨hlive, -⟩ := hstanding.leaving call hcall hd (by rw [hp]; rfl)
        rw [hp] at hids
        exact absurd (DestroyPhase.closing.inj hids ▸ hin) (hold.2 hlive)
    refine hstanding.destroy hi rfl rfl (fun _ => id) (.inl rfl) (by simp) hkeep fun _ hd => ?_
    obtain ⟨hlive, htk⟩ := hstanding.leaving call hcall hd (by rw [hp]; rfl)
    exact ⟨hlive, hkeep htk⟩
  | removeCookie hp | removeRelay hp =>
    refine ⟨fun app happ hpresent => ?_, h.port⟩
    have hstanding := h.standing app happ hpresent
    refine hstanding.destroy hi rfl rfl (fun _ => id) (.inl rfl) (by simp)
      (fun htk => htk.set hi (by simp [hp]) rfl) fun _ hd => ?_
    obtain ⟨hlive, htk⟩ := hstanding.leaving call hcall hd (by rw [hp]; rfl)
    exact ⟨hlive, htk.set hi (by simp [hp]) rfl⟩
  | removeSession hp =>
    have hsub : ∀ disp s, (m.sessions.remove call.display).get disp = some s →
        m.sessions.get disp = some s := fun _ _ hs => Table.get_of_get_remove hs
    refine ⟨fun app happ hpresent => ?_, fun disp j s hbound hs => h.port disp j s hbound (hsub _ _ hs)⟩
    have hstanding := h.standing app happ hpresent
    have hkeep : m.Taken app.connectionId app.display → ({ m with
        sessions := m.sessions.remove call.display
        expired := m.expired ++ m.expiredBy call }.setDestroy i call .done).Taken
          app.connectionId app.display := fun htk => htk.set hi (by simp [hp]) rfl
    -- a present application is in the hands of another `destroy_session` of its display
    have hdis : call.display = app.display → ¬ ({ m with
        sessions := m.sessions.remove call.display
        expired := m.expired ++ m.expiredBy call }.setDestroy i call .done).Undisturbed
          app.display := by
      intro hd hun
      obtain ⟨-, htk⟩ := hstanding.leaving call hcall hd (by rw [hp]; rfl)
      obtain ⟨c, hc, hcd, ids, hids, -⟩ := hkeep htk
      rw [hun c hc hcd] at hids
      contradiction
    refine hstanding.destroy hi rfl rfl (hsub _) ?_ (fun _ => hdis) hkeep (by simp [DestroyPhase.emptied])
    by_cases hd : call.display = app.display
    · exact .inr (hdis hd)
    · exact .inl (congrArg Option.isSome (Table.get_remove_of_ne _ (Ne.symm hd)))

/-- `destroy_session` is called. -/
theorem OwnerInv.destroy {call : DestroyCall} (h : OwnerInv m) (hp : call.phase = .cancelGrace)
    (happs : t.apps = m.apps) (hconns : t.connections = m.connections)
    (hsessions : t.sessions = m.sessions) (hports : t.ports = m.ports)
    (hcreates : t.creates = m.creates) (hdestroys : t.destroys = m.destroys ++ [call]) :
    OwnerInv t := by
  have hadmitted : ∀ j id, m.Admitted j id → t.Admitted j id := by
    unfold Admitted
    rw [hcreates]
    exact fun _ _ => id
  refine ⟨fun app happ hpresent => ?_, fun disp j s hbound hs => ?_⟩
  · unfold Present at hpresent
    rw [happs] at happ
    rw [hconns] at hpresent
    have hstanding := h.standing app happ hpresent
    refine hstanding.of ?_ ?_ (hadmitted _) ?_ ?_
    · rw [hcreates]
      exact fun j c hj hcp hcd => ⟨c, hj, hcp, hcd⟩
    · rw [hsessions]
      exact fun s hs => ⟨s, hs, rfl⟩
    · unfold Unheld Undisturbed
      rw [hcreates, hsessions, hdestroys]
      refine hstanding.somebody.imp_right (Or.imp_right fun hdis hun => hdis fun c hc => ?_)
      exact hun c (List.mem_append_left _ hc)
    · unfold Taken
      rw [hdestroys]
      intro c hc hcd hemptied
      rcases List.mem_append.mp hc with hc | hc
      · obtain ⟨hlive, c', hc', htk⟩ := hstanding.leaving c hc hcd hemptied
        exact ⟨hlive, c', List.mem_append_left _ hc', htk⟩
      · rw [List.mem_singleton.mp hc, hp] at hemptied
        contradiction
  · rw [hports] at hbound
    rw [hsessions] at hs
    exact hadmitted _ _ (h.port disp j s hbound hs)

/-! ## The other steps -/

/-- The display of an application does not change hands. -/
theorem Standing.same (h : Standing m app) (hcreates : t.creates = m.creates)
    (hsessions : ∀ disp, (t.sessions.get disp).map Session.id = (m.sessions.get disp).map Session.id)
    (hdestroys : t.destroys = m.destroys) : Standing t app := by
  refine h.of ?_ ?_ ?_ ?_ ?_
  · rw [hcreates]
    exact fun j c hj hcp hcd => ⟨c, hj, hcp, hcd⟩
  · intro s hs
    have hid := hsessions app.display
    rw [hs] at hid
    obtain ⟨s', hs', hid⟩ := Option.map_eq_some_iff.mp hid.symm
    exact ⟨s', hs', hid⟩
  · unfold Admitted
    rw [hcreates]
    exact fun _ => id
  · have hsome := congrArg Option.isSome (hsessions app.display)
    rw [Option.isSome_map, Option.isSome_map] at hsome
    unfold Unheld Undisturbed
    rw [hcreates, hsome, hdestroys]
    exact h.somebody
  · unfold Taken
    rw [hdestroys]
    exact h.leaving

theorem OwnerInv.same (h : OwnerInv m) (hcreates : t.creates = m.creates)
    (hsessions : ∀ disp, (t.sessions.get disp).map Session.id = (m.sessions.get disp).map Session.id)
    (hdestroys : t.destroys = m.destroys) (hports : t.ports = m.ports)
    (hpresent : ∀ app ∈ t.apps, t.Present app → Standing m app) : OwnerInv t where
  standing app happ hp := (hpresent app happ hp).same hcreates hsessions hdestroys
  port disp j s hbound hs := by
    have hid := hsessions disp
    rw [hs] at hid
    obtain ⟨s', hs', hid⟩ := Option.map_eq_some_iff.mp hid.symm
    rw [hports] at hbound
    unfold Admitted
    rw [hcreates, ← hid]
    exact h.port disp j s' hbound hs'

/-- An application moves on; only its own connection is put into the table. -/
theorem OwnerInv.setApp {app' : App} (h : OwnerInv m) (hi : m.apps[i]? = some app)
    (hnodup : (m.apps.map App.connectionId).Nodup) (happs : t.apps = m.apps.set i app')
    (hid : app'.connectionId = app.connectionId) (hdisp : app'.display = app.display)
    (horigin : app'.origin = app.origin)
    (hlive : app'.phase.live = true → app.phase.live = true)
    (hcreates : t.creates = m.creates) (hsessions : t.sessions = m.sessions)
    (hdestroys : t.destroys = m.destroys) (hports : t.ports = m.ports)
    (hconns : ∀ c disp, t.connections.get c = some disp →
      m.connections.get c = some disp ∨ c = app.connectionId ∧ app.phase.live = true) :
    OwnerInv t := by
  have happ := List.mem_of_getElem? hi
  refine h.same hcreates (fun disp => by rw [hsessions]) hdestroys hports ?_
  intro a ha hpresent
  rw [happs] at ha
  rcases List.mem_or_eq_of_mem_set ha with ha | rfl
  · refine h.standing a ha ?_
    rcases hpresent with hl | hget
    · exact .inl hl
    · rcases hconns _ _ hget with hget | ⟨hc, hl⟩
      · exact .inr hget
      · obtain rfl := List.inj_on_of_nodup_map hnodup ha happ hc
        exact .inl hl
  · refine (h.standing app happ ?_).moved hid hdisp horigin hlive
    rcases hpresent with hl | hget
    · exact .inl (hlive hl)
    · rcases hconns _ _ hget with hget | ⟨-, hl⟩
      · rw [hid, hdisp] at hget
        exact .inr hget
      · exact .inl hl

theorem appStep_ownerInv (h : OwnerInv m) (hreg : RegistryInv m) (hi : m.apps[i]? = some app)
    (ht : m.appStep i app = some t) : OwnerInv t := by
  rcases appStep_cases ht with ⟨relay, hp, -, rfl⟩ | ⟨error, hp, rfl⟩ | ⟨hp, -, rfl⟩ |
    ⟨hp, -, rfl⟩ | ⟨hp, rfl⟩
  · exact h.setApp hi hreg.nodup rfl rfl rfl rfl (by simp [hp, AppPhase.live]) rfl rfl rfl rfl
      fun _ _ => .inl
  · exact h.setApp hi hreg.nodup rfl rfl rfl rfl (by simp [AppPhase.live]) rfl rfl rfl rfl
      fun _ _ => .inl
  · exact h.setApp hi hreg.nodup rfl rfl rfl rfl (by simp [hp, AppPhase.live]) rfl rfl rfl rfl
      fun _ _ => .inl
  · refine h.setApp hi hreg.nodup rfl rfl rfl rfl (by simp [hp, AppPhase.live]) rfl rfl rfl rfl ?_
    intro c disp hget
    change (m.connections.put app.connectionId app.display).get c = some disp at hget
    rw [Table.get_put] at hget
    split at hget
    · exact .inr ⟨‹_›, by simp [hp, AppPhase.live]⟩
    · exact .inl hget
  · exact h.setApp hi hreg.nodup rfl rfl rfl rfl (by simp [AppPhase.live]) rfl rfl rfl rfl
      fun _ _ => .inl

theorem appEnd_ownerInv (h : OwnerInv m) (hreg : RegistryInv m) (hi : m.apps[i]? = some app)
    (ht : m.appEnd i app = some t) : OwnerInv t := by
  rcases appEnd_cases ht with ⟨hp, rfl⟩ | ⟨hp, rfl⟩ <;>
    exact h.setApp hi hreg.nodup rfl rfl rfl rfl (by simp [AppPhase.live]) rfl rfl rfl rfl
      fun _ _ => .inl

theorem accept_ownerInv {port : DisplayNumber} {c : ConnectionId} {handle : Nat} (h : OwnerInv m)
    (hres : ResourceInv m) (hnumber : listenerDisplay port = port)
    (hport : m.ports.get port = some handle) :
    OwnerInv { m with apps := m.apps ++ [⟨c, listenerDisplay port, handle, none, .accepted⟩] } := by
  refine h.same rfl (fun _ => rfl) rfl rfl fun app happ hpresent => ?_
  rcases List.mem_append.mp happ with happ | happ
  · exact h.standing app happ hpresent
  obtain rfl := List.mem_singleton.mp happ
  rw [hnumber]
  refine ⟨?_, fun s hs => h.port port handle s hport hs, ?_, ?_⟩
  · rintro j call hj hp rfl
    rw [(hres.held j call hj hp).port, Option.some.injEq] at hport
    exact hport.symm
  · by_cases hu : m.Unheld port
    · by_cases hd : m.Undisturbed port
      · have hsettled := hres.settled port hu hd
        have hbound := hsettled.bound
        rw [← hsettled.port, hport] at hbound
        exact .inr (.inl hbound.symm)
      · exact .inr (.inr hd)
    · exact .inl hu
  · -- the port of a display that is being emptied is free
    rintro call hcall rfl hp
    have hmine := hres.dismantled call hcall (by rintro hdone; rw [hdone] at hp; contradiction)
    have hlistener := hmine.unbound (by cases hphase : call.phase <;> rw [hphase] at hp <;>
      first | rfl | contradiction)
    rw [← hmine.port, hport] at hlistener
    contradiction

theorem unregisterStep_ownerInv {call : UnregisterCall} (h : OwnerInv m)
    (ht : m.unregisterStep i call = some t) : OwnerInv t := by
  rcases unregisterStep_cases ht with ⟨disp, -, -, -, rfl⟩ | ⟨-, -, rfl⟩ | ⟨disp, ids, -, -, rfl⟩ |
    ⟨disp, -, -, rfl⟩
  · refine h.same rfl (fun _ => rfl) rfl rfl fun app happ hpresent => h.standing app happ ?_
    exact hpresent.imp_right fun hget => Table.get_of_get_remove hget
  all_goals exact h.same rfl (fun _ => rfl) rfl rfl h.standing

theorem resumeStep_ownerInv {call : ResumeCall} (h : OwnerInv m) (hres : ResourceInv m)
    (ht : m.resumeStep i call = some t) : OwnerInv t := by
  cases resumeStep_cases ht with
  | @find session hp hfind =>
    obtain ⟨⟨disp, session'⟩, hmem, rfl⟩ := List.mem_map.mp (List.mem_of_find?_eq_some hfind)
    have hget := Table.mem_entries.mp hmem
    obtain rfl : session'.display = disp := hres.keys _ _ hget
    refine h.same rfl (fun disp => ?_) rfl rfl h.standing
    show ((m.sessions.put session'.display _).get disp).map Session.id = _
    rw [Table.get_put]
    split
    · rename_i hd
      rw [hd, hget]
      rfl
    · rfl
  | missing | cancel | noGrace | ack => exact h.same rfl (fun _ => rfl) rfl rfl h.standing

theorem Admitted.create {call : CreateCall} {j : Nat} {id : SessionId} (h : m.Admitted j id) :
    ({ m with creates := m.creates ++ [call] } : Manager).Admitted j id := by
  obtain ⟨c, s, hc, hs⟩ := h
  obtain ⟨hlt, -⟩ := List.getElem?_eq_some_iff.mp hc
  exact ⟨c, s, (List.getElem?_append_left hlt).trans hc, hs⟩

theorem OwnerInv.create {call : CreateCall} (h : OwnerInv m) (hp : call.phase.holds = false) :
    OwnerInv { m with creates := m.creates ++ [call] } := by
  refine ⟨fun app happ hpresent => ?_, fun disp j s hbound hs => (h.port disp j s hbound hs).create⟩
  have hstanding := h.standing app happ hpresent
  refine hstanding.of ?_ (fun s hs => ⟨s, hs, rfl⟩) (fun _ => Admitted.create) ?_ hstanding.leaving
  · intro j c hj hcp hcd
    change (m.creates ++ [call])[j]? = some c at hj
    rw [List.getElem?_append] at hj
    split at hj
    · exact ⟨c, hj, hcp, hcd⟩
    · rw [List.mem_singleton.mp (List.mem_of_getElem? hj), hp] at hcp
      contradiction
  · refine hstanding.somebody.imp_left fun hheld hunheld => hheld fun c hc => ?_
    exact hunheld c (List.mem_append_left _ hc)

theorem step_ownerInv {a : Action} (h : OwnerInv m) (hres : ResourceInv m) (hreg : RegistryInv m)
    (hg : Attended m a) (ht : m.step a = some t) : OwnerInv t := by
  cases a with
  | create | createAuto =>
    obtain rfl := Option.some.inj ht
    exact h.create rfl
  | createStep i failure id =>
    obtain ⟨call, hi, ht⟩ := Option.bind_eq_some_iff.mp ht
    exact createStep_ownerInv h hres hg hi ht
  | resume | unregisterRelay =>
    obtain rfl := Option.some.inj ht
    exact h.same rfl (fun _ => rfl) rfl rfl h.standing
  | resumeStep i =>
    obtain ⟨call, -, ht⟩ := Option.bind_eq_some_iff.mp ht
    exact resumeStep_ownerInv h hres ht
  | destroy disp =>
    obtain rfl := Option.some.inj ht
    exact h.destroy rfl rfl rfl rfl rfl rfl rfl
  | destroyStep i =>
    obtain ⟨call, hi, ht⟩ := Option.bind_eq_some_iff.mp ht
    exact destroyStep_ownerInv h hres hreg hg hi ht
  | release client =>
    obtain rfl := Option.some.inj ht
    rw [release_frame]
    exact h.same rfl (fun _ => rfl) rfl rfl h.standing
  | graceStep i =>
    obtain ⟨task, -, ht⟩ := Option.bind_eq_some_iff.mp ht
    cases graceStep_cases ht with
    | destroy => exact h.destroy rfl rfl rfl rfl rfl rfl rfl
    | _ => exact h.same rfl (fun _ => rfl) rfl rfl h.standing
  | accept port c =>
    obtain ⟨handle, hport, rfl⟩ := Option.map_eq_some_iff.mp ht
    exact accept_ownerInv h hres hg.2.2 hport
  | appStep i =>
    obtain ⟨app, hi, ht⟩ := Option.bind_eq_some_iff.mp ht
    exact appStep_ownerInv h hreg hi ht
  | appEnd i =>
    obtain ⟨app, hi, ht⟩ := Option.bind_eq_some_iff.mp ht
    exact appEnd_ownerInv h hreg hi ht
  | unregister c =>
    obtain ⟨-, rfl⟩ := step_unregister ht
    exact h.same rfl (fun _ => rfl) rfl rfl h.standing
  | unregisterStep i =>
    obtain ⟨call, -, ht⟩ := Option.bind_eq_some_iff.mp ht
    exact unregisterStep_ownerInv h ht

/-! ## Owners of a session -/

/-- An id is given to one session, and the owner of a session is the client that created it or one that
    resumed it. -/
structure LineageInv (m : Manager) : Prop where
  issued : ∀ i id, m.Admitted i id → id ∈ m.issued
  sessions : ∀ disp s, m.sessions.get disp = some s → s.id ∈ m.issued
  owner : ∀ (i : Nat) (call : CreateCall) s₀, m.creates[i]? = some call →
    call.phase.session = some s₀ → ∀ disp s, m.sessions.get disp = some s → s.id = s₀.id →
      s.clientId = s₀.clientId ∨ m.ResumedBy s.id s.clientId

theorem LineageInv.of (h : LineageInv m) (hcreates : t.creates = m.creates)
    (hissued : t.issued = m.issued)
    (hsessions : ∀ disp s, t.sessions.get disp = some s → m.sessions.get disp = some s)
    (hresumed : ∀ id client, m.ResumedBy id client → t.ResumedBy id client) : LineageInv t where
  issued i id hid := by
    rw [hissued]
    refine h.issued i id ?_
    unfold Admitted at hid ⊢
    rwa [hcreates] at hid
  sessions disp s hs := by
    rw [hissued]
    exact h.sessions disp s (hsessions disp s hs)
  owner i call s₀ hi hs₀ disp s hs hid := by
    rw [hcreates] at hi
    exact (h.owner i call s₀ hi hs₀ disp s (hsessions disp s hs) hid).imp_right (hresumed _ _)

/-- The calls return what they returned before. -/
theorem LineageInv.of_creates (h : LineageInv m)
    (hcreates : ∀ (j : Nat) (call : CreateCall) s, t.creates[j]? = some call →
      call.phase.session = some s → ∃ call', m.creates[j]? = some call' ∧
        call'.phase.session = some s)
    (hissued : t.issued = m.issued) (hsessions : t.sessions = m.sessions)
    (hresumes : t.resumes = m.resumes) : LineageInv t where
  issued i id hid := by
    obtain ⟨call, s, hi, hs, rfl⟩ := hid
    obtain ⟨call', hi', hs'⟩ := hcreates i call s hi hs
    rw [hissued]
    exact h.issued i _ ⟨call', s, hi', hs', rfl⟩
  sessions := by
    rw [hissued, hsessions]
    exact h.sessions
  owner i call s₀ hi hs₀ disp s hs hid := by
    obtain ⟨call', hi', hs'⟩ := hcreates i call s₀ hi hs₀
    unfold ResumedBy
    rw [hresumes]
    exact h.owner i call' s₀ hi' hs' disp s (hsessions ▸ hs) hid

theorem createStep_lineageInv {call : CreateCall} {failure : Option String} {id : SessionId}
    (h : LineageInv m) (hi : m.creates[i]? = some call)
    (ht : m.createStep i call failure id = some t) : LineageInv t := by
  -- every section but the insertion returns what the call has returned
  have hkeep : ∀ call' : CreateCall, t.creates = m.creates.set i call' →
      (∀ s, call'.phase.session = some s → call.phase.session = some s) →
      ∀ (j : Nat) (c : CreateCall) s, t.creates[j]? = some c → c.phase.session = some s →
        ∃ c', m.creates[j]? = some c' ∧ c'.phase.session = some s := by
    intro call' hcreates hsession j c s hj hs
    rw [hcreates] at hj
    obtain ⟨rfl, rfl⟩ | ⟨-, hj⟩ := getElem?_of_set hj
    · exact ⟨call, hi, hsession s hs⟩
    · exact ⟨c, hj, hs⟩
  cases createStep_cases ht with
  | insert hp hsession hfresh =>
    -- the new id is on no session and was returned by no call
    have hcreates : ∀ (j : Nat) (c : CreateCall) s, (m.creates.set i { call with
        phase := .returnedOk ⟨id, call.display, call.authName, call.authData, call.clientId⟩ })[j]? =
          some c → c.phase.session = some s →
        s = ⟨id, call.display, call.authName, call.authData, call.clientId⟩ ∨
          m.creates[j]? = some c ∧ s.id ∈ m.issued := by
      intro j c s hj hs
      obtain ⟨-, rfl⟩ | ⟨-, hj⟩ := getElem?_of_set hj
      · exact .inl (Option.some.inj hs).symm
      · exact .inr ⟨hj, h.issued j _ ⟨c, s, hj, hs, rfl⟩⟩
    have hget : ∀ disp s, (m.sessions.put call.display
        ⟨id, call.display, call.authName, call.authData, call.clientId⟩).get disp = some s →
        s = ⟨id, call.display, call.authName, call.authData, call.clientId⟩ ∨
          m.sessions.get disp = some s ∧ s.id ∈ m.issued := by
      intro disp s hs
      rw [Table.get_put] at hs
      split at hs
      · exact .inl (Option.some.inj hs).symm
      · exact .inr ⟨hs, h.sessions disp s hs⟩
    refine ⟨?_, ?_, ?_⟩
    · rintro j _ ⟨c, s, hj, hs, rfl⟩
      rcases hcreates j c s hj hs with rfl | ⟨-, hmem⟩
      · exact List.mem_cons_self
      · exact List.mem_cons_of_mem _ hmem
    · intro disp s hs
      rcases hget disp s hs with rfl | ⟨-, hmem⟩
      · exact List.mem_cons_self
      · exact List.mem_cons_of_mem _ hmem
    · intro j c s₀ hj hs₀ disp s hs hid
      rcases hcreates j c s₀ hj hs₀ with rfl | ⟨hj, hmem₀⟩ <;>
        rcases hget disp s hs with rfl | ⟨hs, hmem⟩
      · exact .inl rfl
      · rw [hid] at hmem
        exact absurd hmem hfresh
      · rw [← hid] at hmem₀
        exact absurd hmem₀ hfresh
      · exact h.owner j c s₀ hj hs₀ disp s hs hid
  | unwind hp | unbindInUse hp =>
    have hcreates := createStep_frame ht
    rw [unbindDisplay_frame] at hkeep ⊢
    exact h.of_creates (hkeep _ rfl nofun) rfl rfl rfl
  | ack hp => exact h.of_creates (hkeep _ rfl (by simp [hp, CreatePhase.session])) rfl rfl rfl
  | _ => exact h.of_creates (hkeep _ rfl nofun) rfl rfl rfl

theorem ResumedBy.set {call : ResumeCall} {phase : ResumePhase} {id : SessionId} {client : String}
    (h : m.ResumedBy id client) (hi : m.resumes[i]? = some call)
    (hresumes : t.resumes = m.resumes.set i { call with phase := phase })
    (hfound : call.phase.found = true → phase.found = true) : t.ResumedBy id client := by
  unfold ResumedBy
  rw [hresumes]
  obtain ⟨hlt, -⟩ := List.getElem?_eq_some_iff.mp hi
  rcases exists_mem_set { call with phase := phase } hi h with h | ⟨hid, hclient, hp⟩
  · exact h
  · exact ⟨_, List.mem_set hlt _, hid, hclient, hfound hp⟩

theorem resumeStep_lineageInv {call : ResumeCall} (h : LineageInv m) (hi : m.resumes[i]? = some call)
    (ht : m.resumeStep i call = some t) : LineageInv t := by
  obtain ⟨hlt, -⟩ := List.getElem?_eq_some_iff.mp hi
  cases resumeStep_cases ht with
  | @find session hp hfind =>
    have hid : session.id = call.id := by simpa using List.find?_some hfind
    obtain ⟨⟨disp₀, session'⟩, hmem, rfl⟩ := List.mem_map.mp (List.mem_of_find?_eq_some hfind)
    have hold := Table.mem_entries.mp hmem
    have hget : ∀ disp s, (m.sessions.put session'.display
        { session' with clientId := call.clientId }).get disp = some s →
        s = { session' with clientId := call.clientId } ∨ m.sessions.get disp = some s := by
      intro disp s hs
      rw [Table.get_put] at hs
      split at hs
      · exact .inl (Option.some.inj hs).symm
      · exact .inr hs
    refine ⟨h.issued, ?_, ?_⟩
    · intro disp s hs
      rcases hget disp s hs with rfl | hs
      · exact h.sessions disp₀ session' hold
      · exact h.sessions disp s hs
    · intro j c s₀ hj hs₀ disp s hs hsid
      rcases hget disp s hs with rfl | hs
      · exact .inr ⟨_, List.mem_set hlt _, hid.symm, rfl, rfl⟩
      · refine (h.owner j c s₀ hj hs₀ disp s hs hsid).imp_right fun hby => ?_
        exact hby.set hi rfl (by simp [hp, ResumePhase.found])
  | missing hp =>
    exact h.of rfl rfl (fun _ _ => id) fun _ _ hby =>
      hby.set hi rfl (by simp [hp, ResumePhase.found])
  | cancel hp | noGrace hp | ack hp =>
    exact h.of rfl rfl (fun _ _ => id) fun _ _ hby => hby.set hi rfl fun _ => rfl

theorem step_lineageInv {a : Action} (h : LineageInv m) (ht : m.step a = some t) :
    LineageInv t := by
  cases a with
  | create | createAuto =>
    obtain rfl := Option.some.inj ht
    refine h.of_creates (fun j c s hj hs => ?_) rfl rfl rfl
    rw [List.getElem?_append] at hj
    split at hj
    · exact ⟨c, hj, hs⟩
    · rw [List.mem_singleton.mp (List.mem_of_getElem? hj)] at hs
      contradiction
  | createStep i failure id =>
    obtain ⟨call, hi, ht⟩ := Option.bind_eq_some_iff.mp ht
    exact createStep_lineageInv h hi ht
  | resume sid client =>
    obtain rfl := Option.some.inj ht
    refine h.of rfl rfl (fun _ _ => id) ?_
    rintro id client ⟨call, hcall, hby⟩
    exact ⟨call, List.mem_append_left _ hcall, hby⟩
  | resumeStep i =>
    obtain ⟨call, hi, ht⟩ := Option.bind_eq_some_iff.mp ht
    exact resumeStep_lineageInv h hi ht
  | destroyStep i =>
    obtain ⟨call, hi, ht⟩ := Option.bind_eq_some_iff.mp ht
    cases destroyStep_cases ht with
    | removeSession =>
      exact h.of rfl rfl (fun _ _ hs => Table.get_of_get_remove hs) fun _ _ => id
    | unbind =>
      rw [unbindDisplay_frame]
      exact h.of rfl rfl (fun _ _ => id) fun _ _ => id
    | _ => exact h.of rfl rfl (fun _ _ => id) fun _ _ => id
  | _ =>
    have hframe := step_frame ht
    refine h.of (hframe.creates rfl) (hframe.issued rfl) ?_ ?_
    · rw [hframe.sessions rfl]
      exact fun _ _ => id
    · unfold ResumedBy
      rw [hframe.resumes rfl]
      exact fun _ _ => id

/-! ## The owner of a connection -/

structure OwnershipInv (m : Manager) : Prop where
  registry : RegistryInv m
  resources : ResourceInv m
  owners : OwnerInv m
  lineage : LineageInv m

theorem step_ownershipInv {a : Action} (h : OwnershipInv m) (hg : Attended m a)
    (ht : m.step a = some t) : OwnershipInv t where
  registry := step_registryInv h.registry hg.2.1 ht
  resources := step_resourceInv h.resources hg.1 ht
  owners := step_ownerInv h.owners h.resources h.registry hg ht
  lineage := step_lineageInv h.lineage ht

theorem init_ownershipInv : OwnershipInv init where
  registry := init_registryInv
  resources := init_resourceInv
  owners := ⟨nofun, nofun⟩
  lineage := ⟨by rintro i id ⟨call, s, hi, -⟩; contradiction, nofun, nofun⟩

/-- **Who owns a connection.** In every run that attends to its applications, a registered connection whose
    display has a session came through the accept loop of the create call that returned this session,
    and a client that owns the connection created this session or resumed it. -/
theorem owner_admitted_application {as : List Action} (hmeets : Meets step Attended init as)
    (hrun : run step init as = some m) :
    (∀ c disp s, m.connections.get c = some disp → m.sessions.get disp = some s →
      ∃ app ∈ m.apps, app.connectionId = c ∧ m.Admitted app.origin s.id) ∧
    ∀ c client, m.ownsConnection c client = true →
      ∃ app ∈ m.apps, app.connectionId = c ∧ ∃ call s₀, m.creates[app.origin]? = some call ∧
        call.phase.session = some s₀ ∧ (s₀.clientId = client ∨ m.ResumedBy s₀.id client) := by
  have hinv : OwnershipInv m :=
    run_inv (fun m a t h hg ht => step_ownershipInv h hg ht) init_ownershipInv hmeets hrun
  have hadmitted : ∀ c disp s, m.connections.get c = some disp → m.sessions.get disp = some s →
      ∃ app ∈ m.apps, app.connectionId = c ∧ m.Admitted app.origin s.id := by
    intro c disp s hc hs
    obtain ⟨app, happ, rfl, rfl, -⟩ := hinv.registry.inserted c disp hc
    exact ⟨app, happ, rfl, (hinv.owners.standing app happ (.inr hc)).session s hs⟩
  refine ⟨hadmitted, fun c client howns => ?_⟩
  unfold ownsConnection ownsSession at howns
  split at howns
  · rename_i disp hc
    split at howns
    · rename_i s hs
      obtain rfl : s.clientId = client := by simpa using howns
      obtain ⟨app, happ, hid, call, s₀, hcall, hs₀, hsid⟩ := hadmitted c disp s hc hs
      refine ⟨app, happ, hid, call, s₀, hcall, hs₀, ?_⟩
      rw [hsid]
      exact (hinv.lineage.owner _ call s₀ hcall hs₀ disp s hs hsid.symm).imp_left Eq.symm
    · contradiction
  · contradiction

/-- An application connects, and another client resumes the session. -/
def resumedByBob : List Action :=
  createCall 0 ⟨3⟩ ⟨"a"⟩ "alice" ++ connectCall 0 ⟨3⟩ ⟨1⟩ ++
    [.resume ⟨"a"⟩ "bob", .resumeStep 0, .resumeStep 0, .resumeStep 0]

theorem owner_admitted_application_resumed : ∃ m, run step init resumedByBob = some m ∧
    m.ownsConnection ⟨1⟩ "bob" = true ∧ ∃ app ∈ m.apps, app.connectionId = ⟨1⟩ ∧
      ∃ call s₀, m.creates[app.origin]? = some call ∧ call.phase.session = some s₀ ∧
        (s₀.clientId = "bob" ∨ m.ResumedBy s₀.id "bob") := by
  have hlast : ∃ m ∈ run step init resumedByBob, m.ownsConnection ⟨1⟩ "bob" = true := by
    decide +kernel
  obtain ⟨m, hm, howns⟩ := hlast
  have hmeets : Meets step Attended init resumedByBob := by decide +kernel
  exact ⟨m, hm, howns, (owner_admitted_application hmeets hm).2 ⟨1⟩ "bob" howns⟩

/-- An application of the first session registers after that session has been destroyed and another
    client has created one on the same display. -/
def lateRegistration : List Action :=
  createCall 0 ⟨3⟩ ⟨"a"⟩ "alice" ++ [.accept ⟨3⟩ ⟨1⟩, .appStep 0] ++
    .destroy ⟨3⟩ :: List.replicate 6 (.destroyStep 0) ++ createCall 1 ⟨3⟩ ⟨"b"⟩ "bob" ++
    [.appStep 0, .appStep 0, .appStep 0]

/-- The application came through the call that returned the session of `alice`, which nobody has resumed,
    and `bob` owns its connection. -/
theorem late_registration_changes_owner : ∃ m, run step init lateRegistration = some m ∧
    m.ownsConnection ⟨1⟩ "bob" = true ∧ m.resumes = [] ∧
    m.apps.map (fun app => (app.connectionId, app.origin)) = [(⟨1⟩, 0)] ∧
    ∃ call s₀, m.creates[0]? = some call ∧ call.phase.session = some s₀ ∧ s₀.clientId = "alice" := by
  have hlast : ∃ m ∈ run step init lateRegistration, m.ownsConnection ⟨1⟩ "bob" = true ∧
      m.resumes = [] ∧ m.apps.map (fun app => (app.connectionId, app.origin)) = [(⟨1⟩, 0)] ∧
      ∃ call ∈ m.creates[0]?, ∃ s₀ ∈ call.phase.session, s₀.clientId = "alice" := by
    decide +kernel
  obtain ⟨m, hm, howns, hresumes, happs, call, hcall, s₀, hs₀, hclient⟩ := hlast
  exact ⟨m, hm, howns, hresumes, happs, call, s₀, hcall, hs₀, hclient⟩

end Manager

end RemoteX11.Sessions
