/-
  The two tables of X11 connections: `connections`, by id, and `display_conns`, by display.

  `register_x11_connection`, `unregister_x11_connection` and `destroy_session` touch them one after the
  other, in different orders. An entry that is in one table only is accounted for by the call that is
  between its two sections: a registration that has yet to list its connection, a removal that has yet
  to take it off the list, or a `destroy_session` that has taken the list and has yet to close what is
  on it (`RegistryInv`). So the tables agree whenever no call is in progress.

  The limit is checked against the list in one section and the connection is inserted in the next, so
  registrations that pass the check together overshoot it (`registrations_overshoot`). With the ones in
  between counted as well, it is kept.
-/
import RemoteX11.Sessions.Manager
import RemoteX11.Lib.Calls

namespace RemoteX11.Sessions

open RemoteX11.Lib RemoteX11.Protocol

/-- The connection has been inserted into `connections`. -/
def AppPhase.inserted : AppPhase → Bool
  | .listing | .registered | .ended => true
  | _ => false

/-- The connection has been put on the list of its display. -/
def AppPhase.listed : AppPhase → Bool
  | .registered | .ended => true
  | _ => false

namespace Manager

/-- The connections registered for a display. -/
def registered (m : Manager) (disp : DisplayNumber) : Nat :=
  m.connections.entries.countP fun e => e.2 = disp

/-- The registrations that have passed the check of the limit and have not inserted yet. -/
def admitted (m : Manager) (disp : DisplayNumber) : Nat :=
  m.apps.countP fun app => app.display = disp ∧ app.phase = .inserting

def WithinLimit (m : Manager) : Prop :=
  ∀ disp, m.registered disp ≤ maxX11ConnectionsPerDisplay

/-- No registration, removal or `destroy_session` is in progress. -/
def RegistryIdle (m : Manager) : Prop :=
  (∀ app ∈ m.apps, app.phase ≠ .inserting ∧ app.phase ≠ .listing) ∧
    (∀ call ∈ m.unregisters, call.phase = .done) ∧ ∀ call ∈ m.destroys, call.phase = .done

/-- Both tables describe the same relation. -/
def TablesAgree (m : Manager) : Prop :=
  ∀ c disp, c ∈ m.connsOf disp ↔ m.connections.get c = some disp

/-- An accepted connection draws an id that no earlier one has drawn. -/
def FreshId (m : Manager) : Action → Prop
  | .accept _ c => ∀ app ∈ m.apps, app.connectionId ≠ c
  | _ => True

/-- An accepted connection draws an id that no earlier one has drawn, and the check of the limit passes
    only with room for every registration that has passed it before. -/
def Unraced (m : Manager) : Action → Prop
  | .accept _ c => ∀ app ∈ m.apps, app.connectionId ≠ c
  | .appStep i => ∀ app ∈ m.apps[i]?, app.phase = .attached →
      (m.connsOf app.display).length < maxX11ConnectionsPerDisplay →
        m.registered app.display + m.admitted app.display < maxX11ConnectionsPerDisplay
  | _ => True

theorem Unraced.freshId {m : Manager} {a : Action} (h : Unraced m a) : FreshId m a := by
  cases a <;> first | exact h | trivial

instance (m : Manager) : (a : Action) → Decidable (FreshId m a)
  | .accept _ c => inferInstanceAs (Decidable (∀ app ∈ m.apps, app.connectionId ≠ c))
  | .create .. | .createAuto .. | .createStep .. | .resume .. | .resumeStep _ | .destroy _
  | .destroyStep _ | .release _ | .graceStep _ | .appStep _ | .appEnd _ | .unregister _
  | .unregisterStep _ | .unregisterRelay _ => .isTrue trivial

instance (m : Manager) : (a : Action) → Decidable (Unraced m a)
  | .accept _ c => inferInstanceAs (Decidable (∀ app ∈ m.apps, app.connectionId ≠ c))
  | .appStep i => inferInstanceAs (Decidable (∀ app ∈ m.apps[i]?, app.phase = .attached → _ < _ → _))
  | .create .. | .createAuto .. | .createStep .. | .resume .. | .resumeStep _ | .destroy _
  | .destroyStep _ | .release _ | .graceStep _ | .appEnd _ | .unregister _ | .unregisterStep _
  | .unregisterRelay _ => .isTrue trivial

instance (m : Manager) : Decidable m.RegistryIdle := inferInstanceAs (Decidable (_ ∧ _ ∧ _))

/-! ## The invariant -/

/-- The application with this id is on `disp`, in a phase of `P`. -/
def HasApp (m : Manager) (P : AppPhase → Bool) (c : ConnectionId) (disp : DisplayNumber) : Prop :=
  ∃ app ∈ m.apps, app.connectionId = c ∧ app.display = disp ∧ P app.phase = true

/-- A `destroy_session` has taken the connection off the list of its display and has yet to close it. -/
def Taken (m : Manager) (c : ConnectionId) (disp : DisplayNumber) : Prop :=
  ∃ call ∈ m.destroys, call.display = disp ∧ ∃ ids, call.phase = .closing ids ∧ c ∈ ids

structure RegistryInv (m : Manager) : Prop where
  nodup : (m.apps.map App.connectionId).Nodup
  inserted : ∀ c disp, m.connections.get c = some disp → m.HasApp AppPhase.inserted c disp
  listed : ∀ c disp, c ∈ m.connsOf disp → m.HasApp AppPhase.listed c disp
  taken : ∀ c disp, m.Taken c disp → m.HasApp AppPhase.listed c disp ∧ ∀ d, c ∉ m.connsOf d
  removing : ∀ call ∈ m.unregisters, ∃ disp, m.HasApp (· = .ended) call.connectionId disp
  unlisting : ∀ call ∈ m.unregisters, ∀ disp, call.phase = .unlisting disp →
    m.connections.get call.connectionId = none ∧ m.HasApp (· = .ended) call.connectionId disp
  listing : ∀ app ∈ m.apps, app.phase = .listing →
    m.connections.get app.connectionId = some app.display
  /-- A registered connection is listed, about to be listed, or about to be closed. -/
  forward : ∀ c disp, m.connections.get c = some disp →
    c ∈ m.connsOf disp ∨ m.HasApp (· = .listing) c disp ∨ m.Taken c disp
  /-- A listed connection is registered or about to be taken off the list. -/
  backward : ∀ c disp, c ∈ m.connsOf disp → m.connections.get c = some disp ∨
    ∃ call ∈ m.unregisters, call.connectionId = c ∧ call.phase = .unlisting disp

variable {m t : Manager} {c : ConnectionId} {disp disp' : DisplayNumber} {P Q : AppPhase → Bool}

theorem hasApp_unique (hnodup : (m.apps.map App.connectionId).Nodup) (h : m.HasApp P c disp)
    (h' : m.HasApp Q c disp') : disp = disp' ∧ ∃ phase, P phase = true ∧ Q phase = true := by
  obtain ⟨app, hmem, rfl, rfl, hP⟩ := h
  obtain ⟨app', hmem', hid, rfl, hQ⟩ := h'
  obtain rfl := List.inj_on_of_nodup_map hnodup hmem' hmem hid
  exact ⟨rfl, _, hP, hQ⟩

theorem HasApp.setApp {i : Nat} {app : App} {phase : AppPhase} {relay : Option String}
    (h : m.HasApp P c disp) (hi : m.apps[i]? = some app) (hP : P app.phase = true → P phase = true) :
    (m.setApp i { app with relay := relay } phase).HasApp P c disp := by
  have hmem : { app with relay := relay, phase := phase } ∈
      m.apps.set i { app with relay := relay, phase := phase } := by
    obtain ⟨hlt, -⟩ := List.getElem?_eq_some_iff.mp hi
    exact List.mem_set hlt _
  rcases exists_mem_set { app with relay := relay, phase := phase } hi h with h | ⟨hc, hd, hp⟩
  · exact h
  · exact ⟨_, hmem, hc, hd, hP hp⟩

theorem HasApp.of_setApp {i : Nat} {app : App} {phase : AppPhase}
    (h : (m.setApp i app phase).HasApp P c disp) :
    m.HasApp P c disp ∨ app.connectionId = c ∧ app.display = disp ∧ P phase = true :=
  exists_of_mem_set h

theorem nodup_setApp {i : Nat} {app : App} {phase : AppPhase} {relay : Option String}
    (h : (m.apps.map App.connectionId).Nodup) (hi : m.apps[i]? = some app) :
    ((m.setApp i { app with relay := relay } phase).apps.map App.connectionId).Nodup := by
  have hsame : (m.setApp i { app with relay := relay } phase).apps.map App.connectionId =
      m.apps.map App.connectionId := by
    show (m.apps.set i _).map App.connectionId = _
    rw [List.map_set]
    apply List.ext_getElem?
    intro j
    by_cases hij : i = j
    · subst hij
      simp [List.getElem?_set, hi]
      grind
    · rw [List.getElem?_set_ne hij]
  rw [hsame]
  exact h

theorem HasApp.ne_of_phase {i : Nat} {app : App} (h : m.HasApp P c disp)
    (hnodup : (m.apps.map App.connectionId).Nodup) (hi : m.apps[i]? = some app)
    (hP : P app.phase = false) : c ≠ app.connectionId := by
  rintro rfl
  obtain ⟨app', hmem, hid, -, hphase⟩ := h
  obtain rfl := List.inj_on_of_nodup_map hnodup hmem (List.mem_of_getElem? hi) hid
  rw [hP] at hphase
  contradiction

theorem not_unlisting_of_free (h : m.connectionsFree = true) {call : UnregisterCall}
    (hcall : call ∈ m.unregisters) : call.phase ≠ .unlisting disp := by
  intro hp
  have hall := List.all_eq_true.mp h call hcall
  simp [hp] at hall

/-! ## One step -/

/-- The tables and the removals are as before, and the applications have moved on within the phases
    that the invariant tells apart. -/
theorem RegistryInv.of_tables (h : RegistryInv m) (hconns : t.connections = m.connections)
    (hdisplay : t.displayConns = m.displayConns)
    (hunreg : t.unregisters = m.unregisters) (htaken : ∀ c disp, t.Taken c disp ↔ m.Taken c disp)
    (hnodup : (t.apps.map App.connectionId).Nodup)
    (hinserted : ∀ c disp, m.HasApp AppPhase.inserted c disp → t.HasApp AppPhase.inserted c disp)
    (hlisted : ∀ c disp, m.HasApp AppPhase.listed c disp → t.HasApp AppPhase.listed c disp)
    (hended : ∀ c disp, m.HasApp (· = .ended) c disp → t.HasApp (· = .ended) c disp)
    (hlisting : ∀ c disp, m.HasApp (· = .listing) c disp ↔ t.HasApp (· = .listing) c disp) :
    RegistryInv t := by
  have hof : ∀ disp, t.connsOf disp = m.connsOf disp := by
    intro disp
    unfold connsOf
    rw [hdisplay]
  refine ⟨hnodup, ?_, ?_, ?_, ?_, ?_, ?_, ?_, ?_⟩
  · intro c disp hc
    rw [hconns] at hc
    exact hinserted c disp (h.inserted c disp hc)
  · intro c disp hc
    rw [hof] at hc
    exact hlisted c disp (h.listed c disp hc)
  · intro c disp hc
    obtain ⟨happ, hnot⟩ := h.taken c disp ((htaken c disp).mp hc)
    refine ⟨hlisted c disp happ, fun d => ?_⟩
    rw [hof]
    exact hnot d
  · intro call hcall
    rw [hunreg] at hcall
    obtain ⟨disp, happ⟩ := h.removing call hcall
    exact ⟨disp, hended _ disp happ⟩
  · intro call hcall disp hp
    rw [hunreg] at hcall
    rw [hconns]
    exact ⟨(h.unlisting call hcall disp hp).1, hended _ disp (h.unlisting call hcall disp hp).2⟩
  · intro app hmem hp
    obtain ⟨app', hmem', hid, hdisp, hp'⟩ :=
      (hlisting app.connectionId app.display).mpr ⟨app, hmem, rfl, rfl, by simpa using hp⟩
    rw [hconns, ← hid, ← hdisp]
    exact h.listing app' hmem' (by simpa using hp')
  · intro c disp hc
    rw [hconns] at hc
    rw [hof]
    rcases h.forward c disp hc with hl | happ | htk
    · exact .inl hl
    · exact .inr (.inl ((hlisting c disp).mp happ))
    · exact .inr (.inr ((htaken c disp).mpr htk))
  · intro c disp hc
    rw [hof] at hc
    rw [hconns, hunreg]
    exact h.backward c disp hc

/-- A move of one application that is not a section of its registration. -/
theorem RegistryInv.setApp {i : Nat} {app : App} {phase : AppPhase} {relay : Option String}
    (h : RegistryInv m) (hi : m.apps[i]? = some app) (hold : app.phase ≠ .listing)
    (hended : app.phase ≠ .ended) (hnew : phase ≠ .listing)
    (hinserted : app.phase.inserted = true → phase.inserted = true)
    (hlisted : app.phase.listed = true → phase.listed = true) :
    RegistryInv (m.setApp i { app with relay := relay } phase) := by
  have hmove : ∀ P : AppPhase → Bool, (P app.phase = true → P phase = true) → ∀ c disp,
      m.HasApp P c disp → (m.setApp i { app with relay := relay } phase).HasApp P c disp := by
    intro P hP c disp happ
    exact happ.setApp hi hP
  refine h.of_tables rfl rfl rfl (fun _ _ => Iff.rfl) (nodup_setApp h.nodup hi) (hmove _ hinserted)
    (hmove _ hlisted) (hmove _ (by simp [hended])) fun c disp => ?_
  refine ⟨hmove _ (by simp [hold]) c disp, fun happ => ?_⟩
  rcases happ.of_setApp with happ | ⟨-, -, hp⟩
  · exact happ
  · exact absurd (by simpa using hp) hnew

theorem RegistryInv.insert {i : Nat} {app : App} (h : RegistryInv m) (hi : m.apps[i]? = some app)
    (hp : app.phase = .inserting) (hfree : m.connectionsFree = true) :
    RegistryInv ({ m with
      connections := m.connections.put app.connectionId app.display }.setApp i app .listing) := by
  have hmove : ∀ (P : AppPhase → Bool) c disp, P .inserting = false → m.HasApp P c disp →
      (m.setApp i app .listing).HasApp P c disp := by
    intro P c disp hP happ
    refine happ.setApp hi fun hP' => ?_
    rw [hp, hP] at hP'
    contradiction
  -- the connection that is inserted is new to every table
  have hne : ∀ (P : AppPhase → Bool) c disp, P .inserting = false → m.HasApp P c disp →
      c ≠ app.connectionId := by
    intro P c disp hP happ
    exact happ.ne_of_phase h.nodup hi (hp ▸ hP)
  have hnew : ∀ P : AppPhase → Bool, P .listing = true →
      (m.setApp i app .listing).HasApp P app.connectionId app.display := by
    intro P hP
    obtain ⟨hlt, -⟩ := List.getElem?_eq_some_iff.mp hi
    exact ⟨_, List.mem_set hlt _, rfl, rfl, hP⟩
  refine ⟨nodup_setApp h.nodup hi, ?_, ?_, ?_, ?_, ?_, ?_, ?_, ?_⟩
  · intro c disp hc
    change (m.connections.put app.connectionId app.display).get c = some disp at hc
    rw [Table.get_put] at hc
    split at hc
    · obtain rfl := Option.some.inj hc
      subst c
      exact hnew _ rfl
    · exact hmove _ c disp rfl (h.inserted c disp hc)
  · intro c disp hc
    exact hmove _ c disp rfl (h.listed c disp hc)
  · intro c disp hc
    obtain ⟨happ, hnot⟩ := h.taken c disp hc
    exact ⟨hmove _ c disp rfl happ, hnot⟩
  · intro call hcall
    obtain ⟨disp, happ⟩ := h.removing call hcall
    exact ⟨disp, hmove _ _ disp rfl happ⟩
  · intro call hcall disp hcp
    exact absurd hcp (not_unlisting_of_free hfree hcall)
  · intro app' hmem hp'
    rcases List.mem_or_eq_of_mem_set hmem with hmem | rfl
    · have hid : app'.connectionId ≠ app.connectionId :=
        hne (· = .listing) _ app'.display rfl ⟨app', hmem, rfl, rfl, by simpa using hp'⟩
      exact (Table.get_put_of_ne _ _ hid).trans (h.listing app' hmem hp')
    · exact Table.get_put_self _ _ _
  · intro c disp hc
    change (m.connections.put app.connectionId app.display).get c = some disp at hc
    rw [Table.get_put] at hc
    split at hc
    · obtain rfl := Option.some.inj hc
      subst c
      exact .inr (.inl (hnew (· = .listing) rfl))
    · rcases h.forward c disp hc with hl | happ | htk
      · exact .inl hl
      · exact .inr (.inl (hmove _ c disp rfl happ))
      · exact .inr (.inr htk)
  · intro c disp hc
    rcases h.backward c disp hc with hget | hcall
    · left
      exact (Table.get_put_of_ne _ _ (hne _ c disp rfl (h.listed c disp hc))).trans hget
    · exact .inr hcall

theorem mem_connsOf_put {ids : List ConnectionId} :
    c ∈ ({ m with displayConns := m.displayConns.put disp' ids }).connsOf disp ↔
      if disp = disp' then c ∈ ids else c ∈ m.connsOf disp := by
  unfold connsOf
  rw [Table.get_put]
  split <;> rfl

theorem mem_connsOf_list {i : Nat} {app : App} :
    c ∈ ({ m with
      displayConns := m.displayConns.put app.display
        ((m.connsOf app.display).insert app.connectionId) }.setApp i app .registered).connsOf disp ↔
      c ∈ m.connsOf disp ∨ c = app.connectionId ∧ disp = app.display := by
  refine mem_connsOf_put.trans ?_
  by_cases hd : disp = app.display
  · subst hd
    rw [if_pos rfl, List.mem_insert_iff]
    tauto
  · rw [if_neg hd]
    tauto

theorem RegistryInv.list {i : Nat} {app : App} (h : RegistryInv m) (hi : m.apps[i]? = some app)
    (hp : app.phase = .listing) :
    RegistryInv ({ m with
      displayConns := m.displayConns.put app.display
        ((m.connsOf app.display).insert app.connectionId) }.setApp i app .registered) := by
  have hmem := List.mem_of_getElem? hi
  have hmove : ∀ (P : AppPhase → Bool) c disp, (P .listing = true → P .registered = true) →
      m.HasApp P c disp → (m.setApp i app .registered).HasApp P c disp := by
    intro P c disp hP happ
    exact happ.setApp hi (hp ▸ hP)
  have hne : ∀ (P : AppPhase → Bool) c disp, P .listing = false → m.HasApp P c disp →
      c ≠ app.connectionId := by
    intro P c disp hP happ
    exact happ.ne_of_phase h.nodup hi (hp ▸ hP)
  have hnew : (m.setApp i app .registered).HasApp AppPhase.listed app.connectionId app.display := by
    obtain ⟨hlt, -⟩ := List.getElem?_eq_some_iff.mp hi
    exact ⟨_, List.mem_set hlt _, rfl, rfl, rfl⟩
  refine ⟨nodup_setApp h.nodup hi, ?_, ?_, ?_, ?_, ?_, ?_, ?_, ?_⟩
  · intro c disp hc
    exact hmove _ c disp (fun _ => rfl) (h.inserted c disp hc)
  · intro c disp hc
    rcases mem_connsOf_list.mp hc with hc | ⟨rfl, rfl⟩
    · exact hmove _ c disp (by simp [AppPhase.listed]) (h.listed c disp hc)
    · exact hnew
  · intro c disp hc
    obtain ⟨happ, hnot⟩ := h.taken c disp hc
    refine ⟨hmove _ c disp (by simp [AppPhase.listed]) happ, fun disp' hin => ?_⟩
    rcases mem_connsOf_list.mp hin with hin | ⟨rfl, -⟩
    · exact hnot disp' hin
    · exact hne _ _ disp rfl happ rfl
  · intro call hcall
    obtain ⟨disp, happ⟩ := h.removing call hcall
    exact ⟨disp, hmove _ _ disp (by simp) happ⟩
  · intro call hcall disp hcp
    exact ⟨(h.unlisting call hcall disp hcp).1,
      hmove _ _ disp (by simp) (h.unlisting call hcall disp hcp).2⟩
  · intro app' hmem' hp'
    rcases List.mem_or_eq_of_mem_set hmem' with hmem' | rfl
    · exact h.listing app' hmem' hp'
    · contradiction
  · intro c disp hc
    rcases h.forward c disp hc with hl | happ | htk
    · exact .inl (mem_connsOf_list.mpr (.inl hl))
    · rcases exists_mem_set { app with phase := AppPhase.registered } hi happ with
        happ | ⟨rfl, rfl, -⟩
      · exact .inr (.inl happ)
      · exact .inl (mem_connsOf_list.mpr (.inr ⟨rfl, rfl⟩))
    · exact .inr (.inr htk)
  · intro c disp hc
    rcases mem_connsOf_list.mp hc with hc | ⟨rfl, rfl⟩
    · exact h.backward c disp hc
    · exact .inl (h.listing app hmem hp)

theorem RegistryInv.accept {app : App} (h : RegistryInv m)
    (hfresh : ∀ app' ∈ m.apps, app'.connectionId ≠ app.connectionId) (hp : app.phase = .accepted) :
    RegistryInv { m with apps := m.apps ++ [app] } := by
  have hmove : ∀ (P : AppPhase → Bool) c disp, m.HasApp P c disp →
      ({ m with apps := m.apps ++ [app] } : Manager).HasApp P c disp := by
    rintro P c disp ⟨app', hmem, hid⟩
    exact ⟨app', List.mem_append_left _ hmem, hid⟩
  refine h.of_tables rfl rfl rfl (fun _ _ => Iff.rfl) ?_ (hmove _) (hmove _) (hmove _) fun c disp => ?_
  · show ((m.apps ++ [app]).map App.connectionId).Nodup
    rw [List.map_append, List.map_singleton, List.nodup_append]
    refine ⟨h.nodup, List.nodup_singleton _, ?_⟩
    intro c hc c' hc'
    obtain ⟨app', hmem, rfl⟩ := List.mem_map.mp hc
    rw [List.mem_singleton.mp hc']
    exact hfresh app' hmem
  · refine ⟨hmove _ c disp, ?_⟩
    rintro ⟨app', hmem, hid, hdisp, hphase⟩
    rcases List.mem_append.mp hmem with hmem | hmem
    · exact ⟨app', hmem, hid, hdisp, hphase⟩
    · rw [List.mem_singleton.mp hmem] at hphase
      simp [hp] at hphase

/-- `unregister_x11_connection` is called for a connection whose application has ended. -/
theorem RegistryInv.unregister (h : RegistryInv m) (hended : m.HasApp (· = .ended) c disp) :
    RegistryInv { m with unregisters := m.unregisters ++ [UnregisterCall.mk c .removing] } where
  nodup := h.nodup
  inserted := h.inserted
  listed := h.listed
  taken := h.taken
  removing := forall_mem_snoc h.removing ⟨disp, hended⟩
  unlisting := forall_mem_snoc h.unlisting (by simp)
  listing := h.listing
  forward := h.forward
  backward := by
    intro c disp hc
    refine (h.backward c disp hc).imp_right ?_
    rintro ⟨call, hcall, hid⟩
    exact ⟨call, List.mem_append_left _ hcall, hid⟩

theorem RegistryInv.remove {i : Nat} {call : UnregisterCall} (h : RegistryInv m)
    (hi : m.unregisters[i]? = some call) (hfree : m.connectionsFree = true)
    (hget : m.connections.get call.connectionId = some disp) :
    RegistryInv ({ m with
      connections := m.connections.remove call.connectionId }.setUnregister i call
        (.unlisting disp)) := by
  have hcall := List.mem_of_getElem? hi
  obtain ⟨hlt, -⟩ := List.getElem?_eq_some_iff.mp hi
  have hsub : ∀ c disp, (m.connections.remove call.connectionId).get c = some disp →
      c ≠ call.connectionId ∧ m.connections.get c = some disp := by
    intro c disp hc
    rw [Table.get_remove] at hc
    split at hc
    · contradiction
    · exact ⟨‹_›, hc⟩
  -- the application is on the display it was registered for
  have happ : m.HasApp (· = .ended) call.connectionId disp := by
    obtain ⟨disp', hended⟩ := h.removing call hcall
    obtain ⟨rfl, -⟩ := hasApp_unique h.nodup (h.inserted _ _ hget) hended
    exact hended
  refine ⟨h.nodup, ?_, h.listed, h.taken, ?_, ?_, ?_, ?_, ?_⟩
  · intro c disp hc
    exact h.inserted c disp (hsub c disp hc).2
  · exact forall_mem_set h.removing ⟨disp, happ⟩
  · intro call' hcall' disp' hp
    rcases List.mem_or_eq_of_mem_set hcall' with hcall' | rfl
    · exact absurd hp (not_unlisting_of_free hfree hcall')
    · obtain rfl := UnregisterPhase.unlisting.inj hp
      exact ⟨Table.get_remove_self _ _, happ⟩
  · intro app hmem hp
    have hne : app.connectionId ≠ call.connectionId := by
      intro hid
      obtain ⟨app', hmem', hid', -, hended⟩ := happ
      obtain rfl := List.inj_on_of_nodup_map h.nodup hmem hmem' (hid.trans hid'.symm)
      simp [hp] at hended
    exact (Table.get_remove_of_ne _ hne).trans (h.listing app hmem hp)
  · intro c disp hc
    exact h.forward c disp (hsub c disp hc).2
  · intro c disp' hc
    have hmem : { call with phase := .unlisting disp } ∈
        m.unregisters.set i { call with phase := .unlisting disp } := List.mem_set hlt _
    rcases h.backward c disp' hc with hc' | ⟨call', hcall', -, hp⟩
    · by_cases hid : c = call.connectionId
      · subst hid
        obtain rfl := Option.some.inj (hget.symm.trans hc')
        exact .inr ⟨_, hmem, rfl, rfl⟩
      · exact .inl ((Table.get_remove_of_ne _ hid).trans hc')
    · exact absurd hp (not_unlisting_of_free hfree hcall')

/-- The last section of a removal: the connection is off the list of its display. -/
theorem RegistryInv.unlist {i : Nat} {call : UnregisterCall} (h : RegistryInv m)
    (hi : m.unregisters[i]? = some call)
    (hconns : t.connections = m.connections) (happs : t.apps = m.apps)
    (hdestroys : t.destroys = m.destroys)
    (hunreg : t.unregisters = m.unregisters.set i { call with phase := .done })
    (hlist : ∀ c disp, c ∈ t.connsOf disp ↔
      c ∈ m.connsOf disp ∧ ¬ (call.phase = .unlisting disp ∧ c = call.connectionId)) :
    RegistryInv t := by
  have hcall := List.mem_of_getElem? hi
  have happ : ∀ P c disp, t.HasApp P c disp ↔ m.HasApp P c disp := by
    intro P c disp
    unfold HasApp
    rw [happs]
  have htaken : ∀ c disp, t.Taken c disp ↔ m.Taken c disp := by
    intro c disp
    unfold Taken
    rw [hdestroys]
  refine ⟨happs ▸ h.nodup, ?_, ?_, ?_, ?_, ?_, ?_, ?_, ?_⟩
  · intro c disp hc
    rw [happ]
    exact h.inserted c disp (hconns ▸ hc)
  · intro c disp hc
    rw [happ]
    exact h.listed c disp ((hlist c disp).mp hc).1
  · intro c disp hc
    obtain ⟨hd, hnot⟩ := h.taken c disp ((htaken c disp).mp hc)
    exact ⟨(happ _ _ _).mpr hd, fun d hin => hnot d ((hlist c d).mp hin).1⟩
  · rw [hunreg]
    refine forall_mem_set ?_ ?_
    · intro call' hcall'
      obtain ⟨disp, hd⟩ := h.removing call' hcall'
      exact ⟨disp, (happ _ _ _).mpr hd⟩
    · obtain ⟨disp, hd⟩ := h.removing call hcall
      exact ⟨disp, (happ _ _ _).mpr hd⟩
  · intro call' hcall' disp hp
    rw [hunreg] at hcall'
    rw [hconns, happ]
    rcases List.mem_or_eq_of_mem_set hcall' with hcall' | rfl
    · exact h.unlisting call' hcall' disp hp
    · contradiction
  · intro app hmem hp
    rw [hconns]
    exact h.listing app (happs ▸ hmem) hp
  · intro c disp hc
    rw [hconns] at hc
    rw [happ, htaken]
    rcases h.forward c disp hc with hl | hrest
    · refine .inl ((hlist c disp).mpr ⟨hl, ?_⟩)
      rintro ⟨hp, rfl⟩
      have hnone := (h.unlisting call hcall disp hp).1
      rw [hc] at hnone
      contradiction
    · exact .inr hrest
  · intro c disp hc
    obtain ⟨hin, hnot⟩ := (hlist c disp).mp hc
    rw [hconns, hunreg]
    rcases h.backward c disp hin with hget | hun
    · exact .inl hget
    · rcases exists_mem_set { call with phase := .done } hi hun with hun | ⟨hid, hp⟩
      · exact .inr hun
      · exact absurd ⟨hp, hid.symm⟩ hnot

/-- A `destroy_session` takes the list of its display. -/
theorem RegistryInv.take {i : Nat} {call : DestroyCall} {ids : List ConnectionId} (h : RegistryInv m)
    (hi : m.destroys[i]? = some call) (hp : call.phase = .takeConns)
    (hids : m.displayConns.get call.display = some ids) :
    RegistryInv ({ m with displayConns := m.displayConns.remove call.display }.setDestroy i call
      (.closing ids)) := by
  obtain ⟨hlt, -⟩ := List.getElem?_eq_some_iff.mp hi
  have hof : m.connsOf call.display = ids := by
    unfold connsOf
    rw [hids]
    rfl
  have hlist : ∀ c disp, c ∈ ({ m with
      displayConns := m.displayConns.remove call.display }.setDestroy i call
        (.closing ids)).connsOf disp ↔ c ∈ m.connsOf disp ∧ disp ≠ call.display := by
    intro c disp
    show c ∈ ((m.displayConns.remove call.display).get disp).getD [] ↔ _
    rw [Table.get_remove]
    by_cases hd : disp = call.display
    · simp [hd]
    · simp [hd, connsOf]
  have htaken : ∀ c disp, ({ m with
      displayConns := m.displayConns.remove call.display }.setDestroy i call
        (.closing ids)).Taken c disp ↔ m.Taken c disp ∨ call.display = disp ∧ c ∈ ids := by
    intro c disp
    constructor
    · intro hc
      rcases exists_of_mem_set hc with hc | ⟨hcd, ids', hp', hmem⟩
      · exact .inl hc
      · exact .inr ⟨hcd, DestroyPhase.closing.inj hp' ▸ hmem⟩
    · rintro (hc | ⟨hcd, hc⟩)
      · rcases exists_mem_set { call with phase := .closing ids } hi hc with hc | ⟨-, ids', hp', -⟩
        · exact hc
        · rw [hp] at hp'
          contradiction
      · exact ⟨_, List.mem_set hlt _, hcd, ids, rfl, hc⟩
  refine ⟨h.nodup, h.inserted, ?_, ?_, h.removing, h.unlisting, h.listing, ?_, ?_⟩
  · intro c disp hc
    exact h.listed c disp ((hlist c disp).mp hc).1
  · intro c disp hc
    rcases (htaken c disp).mp hc with hc | ⟨rfl, hids⟩
    · obtain ⟨happ, hnot⟩ := h.taken c disp hc
      exact ⟨happ, fun d hin => hnot d ((hlist c d).mp hin).1⟩
    · have happ := h.listed c call.display (hof ▸ hids)
      refine ⟨happ, fun d hin => ?_⟩
      -- it is on the list of its own display only
      obtain ⟨hin, hne⟩ := (hlist c d).mp hin
      exact hne (hasApp_unique h.nodup (h.listed c d hin) happ).1
  · intro c disp hc
    rcases h.forward c disp hc with hl | happ | htk
    · by_cases hd : disp = call.display
      · subst hd
        exact .inr (.inr ((htaken c _).mpr (.inr ⟨rfl, hof ▸ hl⟩)))
      · exact .inl ((hlist c disp).mpr ⟨hl, hd⟩)
    · exact .inr (.inl happ)
    · exact .inr (.inr ((htaken c disp).mpr (.inl htk)))
  · intro c disp hc
    exact h.backward c disp ((hlist c disp).mp hc).1

/-- A `destroy_session` closes the connections it has taken. -/
theorem RegistryInv.close {i : Nat} {call : DestroyCall} {ids : List ConnectionId}
    (h : RegistryInv m) (hi : m.destroys[i]? = some call) (hp : call.phase = .closing ids) :
    RegistryInv ({ m with connections := m.connections.removeAll ids }.setDestroy i call
      .xauthRemove) := by
  have hsub : ∀ c disp, (m.connections.removeAll ids).get c = some disp →
      c ∉ ids ∧ m.connections.get c = some disp := by
    intro c disp hc
    rw [Table.get_removeAll] at hc
    split at hc
    · contradiction
    · exact ⟨‹_›, hc⟩
  have hkeep : ∀ c, c ∉ ids → (m.connections.removeAll ids).get c = m.connections.get c := by
    intro c hc
    rw [Table.get_removeAll, if_neg hc]
  have htaken : ∀ c disp, ({ m with connections := m.connections.removeAll ids }.setDestroy i call
      .xauthRemove).Taken c disp → m.Taken c disp := by
    intro c disp hc
    rcases exists_of_mem_set hc with hc | ⟨-, ids', hp', -⟩
    · exact hc
    · contradiction
  have hmine : ∀ c ∈ ids, m.Taken c call.display :=
    fun c hc => ⟨call, List.mem_of_getElem? hi, rfl, ids, hp, hc⟩
  refine ⟨h.nodup, ?_, h.listed, fun c disp hc => h.taken c disp (htaken c disp hc), h.removing,
    ?_, ?_, ?_, ?_⟩
  · intro c disp hc
    exact h.inserted c disp (hsub c disp hc).2
  · intro call' hcall' disp hp'
    obtain ⟨hnone, happ⟩ := h.unlisting call' hcall' disp hp'
    refine ⟨?_, happ⟩
    show (m.connections.removeAll ids).get call'.connectionId = none
    rw [Table.get_removeAll, hnone, ite_self]
  · intro app hmem hphase
    -- what was taken is listed, so its application is past `listing`
    have hnot : app.connectionId ∉ ids := by
      intro hin
      obtain ⟨⟨app', hmem', hid, -, hl⟩, -⟩ := h.taken _ _ (hmine _ hin)
      obtain rfl := List.inj_on_of_nodup_map h.nodup hmem' hmem hid
      rw [hphase] at hl
      contradiction
    exact (hkeep _ hnot).trans (h.listing app hmem hphase)
  · intro c disp hc
    obtain ⟨hnot, hget⟩ := hsub c disp hc
    rcases h.forward c disp hget with hl | happ | htk
    · exact .inl hl
    · exact .inr (.inl happ)
    · rcases exists_mem_set { call with phase := .xauthRemove } hi htk with htk | ⟨-, ids', hp', hin⟩
      · exact .inr (.inr htk)
      · rw [hp] at hp'
        exact absurd (DestroyPhase.closing.inj hp' ▸ hin) hnot
  · intro c disp hc
    refine (h.backward c disp hc).imp_left fun hget => (hkeep c ?_).trans hget
    intro hin
    exact (h.taken c _ (hmine c hin)).2 disp hc

theorem RegistryInv.of_apps (h : RegistryInv m) (hconns : t.connections = m.connections)
    (hdisplay : t.displayConns = m.displayConns) (hunreg : t.unregisters = m.unregisters)
    (happs : t.apps = m.apps) (htaken : ∀ c disp, t.Taken c disp ↔ m.Taken c disp) : RegistryInv t := by
  have happ : ∀ P c disp, t.HasApp P c disp ↔ m.HasApp P c disp := by
    intro P c disp
    unfold HasApp
    rw [happs]
  exact h.of_tables hconns hdisplay hunreg htaken (happs ▸ h.nodup)
    (fun c disp => (happ _ c disp).mpr) (fun c disp => (happ _ c disp).mpr)
    (fun c disp => (happ _ c disp).mpr) fun c disp => (happ _ c disp).symm

/-- A new `destroy_session` has taken nothing. -/
theorem taken_snoc {call : DestroyCall} (hdestroys : t.destroys = m.destroys ++ [call])
    (hp : call.phase = .cancelGrace) : t.Taken c disp ↔ m.Taken c disp := by
  unfold Taken
  rw [hdestroys]
  simp [hp]

/-- A section of `destroy_session` that is neither. -/
theorem taken_set {i : Nat} {call : DestroyCall} {phase : DestroyPhase}
    (hi : m.destroys[i]? = some call)
    (hdestroys : t.destroys = m.destroys.set i { call with phase := phase })
    (hold : ∀ ids, call.phase ≠ .closing ids) (hnew : ∀ ids, phase ≠ .closing ids) :
    t.Taken c disp ↔ m.Taken c disp := by
  unfold Taken
  rw [hdestroys]
  constructor
  · intro hc
    rcases exists_of_mem_set hc with hc | ⟨-, ids, hp, -⟩
    · exact hc
    · exact absurd hp (hnew ids)
  · intro hc
    rcases exists_mem_set { call with phase := phase } hi hc with hc | ⟨-, ids, hp, -⟩
    · exact hc
    · exact absurd hp (hold ids)

theorem destroyStep_registryInv {i : Nat} {call : DestroyCall} (h : RegistryInv m)
    (hi : m.destroys[i]? = some call) (ht : m.destroyStep i call = some t) : RegistryInv t := by
  cases destroyStep_cases ht with
  | take hp hids => exact h.take hi hp hids
  | close hp hfree => exact h.close hi hp
  | unbind hp =>
    rw [unbindDisplay_frame]
    exact h.of_apps rfl rfl rfl rfl fun _ _ => taken_set hi rfl (by simp [hp]) (by simp)
  | cancel hp | noGrace hp | noConns hp | removeCookie hp | removeRelay hp | removeSession hp =>
    exact h.of_apps rfl rfl rfl rfl fun _ _ => taken_set hi rfl (by simp [hp]) (by simp)

theorem graceStep_taken {i : Nat} {task : GraceTask} (ht : m.graceStep i task = some t) :
    t.Taken c disp ↔ m.Taken c disp := by
  cases graceStep_cases ht
  case destroy => exact taken_snoc rfl rfl
  all_goals rfl

theorem appStep_registryInv {i : Nat} {app : App} (h : RegistryInv m) (hi : m.apps[i]? = some app)
    (ht : m.appStep i app = some t) : RegistryInv t := by
  rcases appStep_cases ht with ⟨relay, hp, -, rfl⟩ | ⟨error, hp, rfl⟩ | ⟨hp, -, rfl⟩ |
    ⟨hp, hfree, rfl⟩ | ⟨hp, rfl⟩
  · refine h.setApp hi ?_ ?_ ?_ ?_ ?_ <;> simp [hp, AppPhase.inserted, AppPhase.listed]
  · refine h.setApp hi ?_ ?_ ?_ ?_ ?_ <;> simp [hp, AppPhase.inserted, AppPhase.listed]
  · refine h.setApp hi ?_ ?_ ?_ ?_ ?_ <;> simp [hp, AppPhase.inserted, AppPhase.listed]
  · exact h.insert hi hp hfree
  · exact h.list hi hp

theorem appEnd_registryInv {i : Nat} {app : App} (h : RegistryInv m) (hi : m.apps[i]? = some app)
    (ht : m.appEnd i app = some t) : RegistryInv t := by
  obtain ⟨hlt, -⟩ := List.getElem?_eq_some_iff.mp hi
  rcases appEnd_cases ht with ⟨hp, rfl⟩ | ⟨hp, rfl⟩
  · refine h.setApp hi ?_ ?_ ?_ ?_ ?_ <;> simp [hp, AppPhase.inserted, AppPhase.listed]
  · have hended : RegistryInv (m.setApp i app .ended) := by
      refine h.setApp hi ?_ ?_ ?_ ?_ ?_ <;> simp [hp, AppPhase.inserted, AppPhase.listed]
    exact hended.unregister ⟨_, List.mem_set hlt _, rfl, rfl, by simp⟩

theorem unregisterStep_registryInv {i : Nat} {call : UnregisterCall} (h : RegistryInv m)
    (hi : m.unregisters[i]? = some call) (ht : m.unregisterStep i call = some t) :
    RegistryInv t := by
  rcases unregisterStep_cases ht with ⟨disp, -, hfree, hget, rfl⟩ | ⟨hp, -, rfl⟩ |
    ⟨disp, ids, hp, hids, rfl⟩ | ⟨disp, hp, hids, rfl⟩
  · exact h.remove hi hfree hget
  · refine h.unlist hi rfl rfl rfl rfl fun c disp => ?_
    simp [hp, connsOf, setUnregister]
  · refine h.unlist hi rfl rfl rfl rfl fun c disp' => ?_
    refine mem_connsOf_put.trans ?_
    by_cases hd : disp' = disp
    · subst hd
      simp [hp, connsOf, hids]
    · simp [hp, hd, Ne.symm hd]
  · refine h.unlist hi rfl rfl rfl rfl fun c disp' => ?_
    by_cases hd : disp' = disp
    · subst hd
      simp [hp, connsOf, setUnregister, hids]
    · simp [hp, connsOf, setUnregister, Ne.symm hd]

theorem step_registryInv {a : Action} (h : RegistryInv m) (hg : FreshId m a)
    (ht : m.step a = some t) : RegistryInv t := by
  cases a with
  | create | createAuto | resume | unregisterRelay =>
    obtain rfl := Option.some.inj ht
    exact h.of_apps rfl rfl rfl rfl fun _ _ => Iff.rfl
  | createStep i failure id =>
    obtain ⟨call, -, ht⟩ := Option.bind_eq_some_iff.mp ht
    rw [createStep_frame ht]
    exact h.of_apps rfl rfl rfl rfl fun _ _ => Iff.rfl
  | resumeStep i =>
    obtain ⟨call, -, ht⟩ := Option.bind_eq_some_iff.mp ht
    rw [resumeStep_frame ht]
    exact h.of_apps rfl rfl rfl rfl fun _ _ => Iff.rfl
  | destroy disp =>
    obtain rfl := Option.some.inj ht
    exact h.of_apps rfl rfl rfl rfl fun _ _ => taken_snoc rfl rfl
  | destroyStep i =>
    obtain ⟨call, hi, ht⟩ := Option.bind_eq_some_iff.mp ht
    exact destroyStep_registryInv h hi ht
  | release client =>
    obtain rfl := Option.some.inj ht
    rw [release_frame]
    exact h.of_apps rfl rfl rfl rfl fun _ _ => Iff.rfl
  | graceStep i =>
    obtain ⟨task, -, ht⟩ := Option.bind_eq_some_iff.mp ht
    have hframe := graceStep_frame ht
    exact h.of_apps (by rw [hframe]) (by rw [hframe]) (by rw [hframe]) (by rw [hframe])
      fun _ _ => graceStep_taken ht
  | accept port c =>
    obtain ⟨handle, -, rfl⟩ := Option.map_eq_some_iff.mp ht
    exact h.accept hg rfl
  | appStep i =>
    obtain ⟨app, hi, ht⟩ := Option.bind_eq_some_iff.mp ht
    exact appStep_registryInv h hi ht
  | appEnd i =>
    obtain ⟨app, hi, ht⟩ := Option.bind_eq_some_iff.mp ht
    exact appEnd_registryInv h hi ht
  | unregister c =>
    obtain ⟨⟨app, hmem, rfl, hended⟩, rfl⟩ := step_unregister ht
    exact h.unregister ⟨app, hmem, rfl, rfl, by simpa using hended⟩
  | unregisterStep i =>
    obtain ⟨call, hi, ht⟩ := Option.bind_eq_some_iff.mp ht
    exact unregisterStep_registryInv h hi ht

theorem RegistryInv.tablesAgree (h : RegistryInv m) (hidle : m.RegistryIdle) : m.TablesAgree := by
  obtain ⟨happs, hunreg, hdestroys⟩ := hidle
  intro c disp
  constructor
  · intro hc
    rcases h.backward c disp hc with hget | ⟨call, hcall, -, hp⟩
    · exact hget
    · rw [hunreg call hcall] at hp
      contradiction
  · intro hget
    rcases h.forward c disp hget with hc | ⟨app, hmem, -, -, hp⟩ | ⟨call, hcall, -, ids, hp, -⟩
    · exact hc
    · exact absurd (by simpa using hp) (happs app hmem).2
    · rw [hdestroys call hcall] at hp
      contradiction

theorem init_registryInv : RegistryInv init := by
  constructor <;> simp [init, connsOf, Taken]

/-! ## The limit -/

/-- The limit is kept with the registrations between their two sections counted. -/
def LimitInv (m : Manager) : Prop :=
  ∀ disp, m.registered disp + m.admitted disp ≤ maxX11ConnectionsPerDisplay

theorem registered_remove_le (c : ConnectionId) (disp : DisplayNumber) :
    (m.connections.remove c).entries.countP (fun e => e.2 = disp) ≤ m.registered disp :=
  List.filter_sublist.countP_le

theorem registered_removeAll_le (ids : List ConnectionId) (disp : DisplayNumber) :
    (m.connections.removeAll ids).entries.countP (fun e => e.2 = disp) ≤ m.registered disp := by
  unfold Table.removeAll
  induction ids generalizing m with
  | nil => exact le_refl _
  | cons c ids ih =>
    exact le_trans (ih (m := { m with connections := m.connections.remove c }))
      (registered_remove_le c disp)

theorem registered_put_le (c : ConnectionId) (disp disp' : DisplayNumber) :
    (m.connections.put c disp').entries.countP (fun e => e.2 = disp) ≤
      m.registered disp + if disp' = disp then 1 else 0 := by
  show (((c, disp') :: Assoc.remove m.connections.entries c).countP fun e => e.2 = disp) ≤ _
  rw [List.countP_cons]
  exact Nat.add_le_add (registered_remove_le c disp) (by simp)

theorem admitted_set {i : Nat} {app app' : App} (hi : m.apps[i]? = some app)
    (happs : t.apps = m.apps.set i app') (disp : DisplayNumber) :
    t.admitted disp + (if app.display = disp ∧ app.phase = .inserting then 1 else 0) =
      m.admitted disp + if app'.display = disp ∧ app'.phase = .inserting then 1 else 0 := by
  unfold admitted
  rw [happs]
  simpa only [decide_eq_true_eq] using
    countP_set (fun app => app.display = disp ∧ app.phase = .inserting) app' hi

theorem admitted_set_eq {i : Nat} {app app' : App} (hi : m.apps[i]? = some app)
    (happs : t.apps = m.apps.set i app') (hold : app.phase ≠ .inserting)
    (hnew : app'.phase ≠ .inserting) (disp : DisplayNumber) : t.admitted disp = m.admitted disp := by
  have hcount := admitted_set hi happs disp
  rwa [if_neg fun h => hold h.2, if_neg fun h => hnew h.2, Nat.add_zero, Nat.add_zero] at hcount

theorem LimitInv.of_counts (h : LimitInv m)
    (hregistered : ∀ disp, t.registered disp ≤ m.registered disp)
    (hadmitted : ∀ disp, t.admitted disp = m.admitted disp) : LimitInv t := by
  intro disp
  rw [hadmitted]
  exact le_trans (Nat.add_le_add_right (hregistered disp) _) (h disp)

theorem LimitInv.of_tables (h : LimitInv m) (hconns : t.connections = m.connections)
    (happs : t.apps = m.apps) : LimitInv t := by
  apply h.of_counts
  · intro disp
    unfold registered
    rw [hconns]
  · intro disp
    unfold admitted
    rw [happs]

theorem appStep_limitInv {i : Nat} {app : App} (h : LimitInv m) (hg : Unraced m (.appStep i))
    (hi : m.apps[i]? = some app) (ht : m.appStep i app = some t) : LimitInv t := by
  rcases appStep_cases ht with ⟨relay, hp, -, rfl⟩ | ⟨error, hp, rfl⟩ | ⟨hp, hlen, rfl⟩ |
    ⟨hp, hfree, rfl⟩ | ⟨hp, rfl⟩
  · exact h.of_counts (fun disp => le_refl _) (admitted_set_eq hi rfl (by simp [hp]) (by simp))
  · exact h.of_counts (fun disp => le_refl _) (admitted_set_eq hi rfl (by simp [hp]) (by simp))
  · -- one more registration is between its sections
    intro disp
    have hroom := hg app hi hp hlen
    have hcount : (m.setApp i app .inserting).admitted disp + _ = m.admitted disp + _ :=
      admitted_set hi rfl disp
    have hbound := h disp
    rw [if_neg (by simp [hp])] at hcount
    show m.registered disp + (m.setApp i app .inserting).admitted disp ≤ _
    by_cases hd : app.display = disp
    · subst hd
      rw [if_pos ⟨rfl, rfl⟩] at hcount
      omega
    · rw [if_neg fun h => hd h.1] at hcount
      omega
  · -- the one that inserts was counted before
    intro disp
    have hput := registered_put_le (m := m) app.connectionId disp app.display
    have hcount : (m.setApp i app .listing).admitted disp + _ = m.admitted disp + _ :=
      admitted_set hi rfl disp
    have hbound := h disp
    rw [if_neg (c := _ ∧ AppPhase.listing = _) (by simp)] at hcount
    simp only [hp, and_true] at hcount
    show (m.connections.put app.connectionId app.display).entries.countP (fun e => e.2 = disp) +
      (m.setApp i app .listing).admitted disp ≤ _
    omega
  · exact h.of_counts (fun disp => le_refl _) (admitted_set_eq hi rfl (by simp [hp]) (by simp))

theorem step_limitInv {a : Action} (h : LimitInv m) (hg : Unraced m a) (ht : m.step a = some t) :
    LimitInv t := by
  cases a with
  | destroyStep i =>
    obtain ⟨call, -, ht⟩ := Option.bind_eq_some_iff.mp ht
    cases destroyStep_cases ht with
    | close => exact h.of_counts (registered_removeAll_le _) fun disp => rfl
    | unbind =>
      rw [unbindDisplay_frame]
      exact h
    | _ => exact h
  | accept port c =>
    obtain ⟨handle, -, rfl⟩ := Option.map_eq_some_iff.mp ht
    refine h.of_counts (fun disp => le_refl _) fun disp => ?_
    unfold admitted
    simp
  | appStep i =>
    obtain ⟨app, hi, ht⟩ := Option.bind_eq_some_iff.mp ht
    exact appStep_limitInv h hg hi ht
  | appEnd i =>
    obtain ⟨app, hi, ht⟩ := Option.bind_eq_some_iff.mp ht
    rcases appEnd_cases ht with ⟨hp, rfl⟩ | ⟨hp, rfl⟩ <;>
      exact h.of_counts (fun disp => le_refl _) (admitted_set_eq hi rfl (by simp [hp]) (by simp))
  | unregisterStep i =>
    obtain ⟨call, -, ht⟩ := Option.bind_eq_some_iff.mp ht
    rcases unregisterStep_cases ht with ⟨disp, -, -, -, rfl⟩ | ⟨-, -, rfl⟩ | ⟨disp, ids, -, -, rfl⟩ |
      ⟨disp, -, -, rfl⟩
    · exact h.of_counts (registered_remove_le call.connectionId) fun disp => rfl
    all_goals exact h
  | _ => exact h.of_tables ((step_frame ht).connections rfl) ((step_frame ht).apps rfl)

/-- **The tables of connections.** In every run whose accepted connections draw new ids and whose checks
    of the limit leave room for the registrations that have passed before, the two tables describe
    the same relation whenever no call is in progress, and no display is ever over the limit. -/
theorem tables_agree_within_limit {as : List Action} (hmeets : Meets step Unraced init as)
    (hrun : run step init as = some m) :
    (m.RegistryIdle → m.TablesAgree) ∧ m.WithinLimit := by
  have hinv : RegistryInv m ∧ LimitInv m := by
    refine run_inv (I := fun m => RegistryInv m ∧ LimitInv m) ?_ ⟨init_registryInv, ?_⟩ hmeets hrun
    · rintro m a t ⟨hreg, hlimit⟩ hg ht
      exact ⟨step_registryInv hreg hg.freshId ht, step_limitInv hlimit hg ht⟩
    · intro disp
      exact Nat.zero_le _
  refine ⟨hinv.1.tablesAgree, fun disp => ?_⟩
  exact le_trans (Nat.le_add_right _ _) (hinv.2 disp)

/-- A session with two applications, one of which ends. -/
def oneOfTwo : List Action :=
  createCall 0 ⟨3⟩ ⟨"a"⟩ "client" ++ connectCall 0 ⟨3⟩ ⟨1⟩ ++ connectCall 1 ⟨3⟩ ⟨2⟩ ++
    [.appEnd 0, .unregisterStep 0, .unregisterStep 0]

theorem tables_agree_within_limit_oneOfTwo : ∃ m, run step init oneOfTwo = some m ∧
    m.RegistryIdle ∧ m.registered ⟨3⟩ = 1 ∧ m.TablesAgree ∧ m.WithinLimit := by
  have hlast : ∃ m ∈ run step init oneOfTwo, m.RegistryIdle ∧ m.registered ⟨3⟩ = 1 := by
    decide +kernel
  obtain ⟨m, hm, hidle, hone⟩ := hlast
  have hmeets : Meets step Unraced init oneOfTwo := by decide +kernel
  obtain ⟨hagree, hlimit⟩ := tables_agree_within_limit hmeets hm
  exact ⟨m, hm, hidle, hone, hagree hidle, hlimit⟩

/-- With 63 connections on the list, two registrations check the limit before either inserts. -/
def overshoot : List Action :=
  createCall 0 ⟨3⟩ ⟨"a"⟩ "client" ++
    (List.range 63).flatMap (fun i => connectCall i ⟨3⟩ ⟨UInt32.ofNat (i + 1)⟩) ++
    [.accept ⟨3⟩ ⟨64⟩, .accept ⟨3⟩ ⟨65⟩, .appStep 63, .appStep 64, .appStep 63, .appStep 64,
      .appStep 63, .appStep 64]

theorem registrations_overshoot : ∃ m, run step init overshoot = some m ∧ ¬ m.WithinLimit := by
  have hlast : ∃ m ∈ run step init overshoot, m.registered ⟨3⟩ = 65 := by decide +kernel
  obtain ⟨m, hm, hcount⟩ := hlast
  refine ⟨m, hm, fun hlimit => ?_⟩
  have hle := hlimit ⟨3⟩
  rw [hcount] at hle
  exact absurd hle (by decide)

end Manager

end RemoteX11.Sessions
