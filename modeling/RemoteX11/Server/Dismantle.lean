/-
  Does a `destroy_session` call come to its end?

  It awaits room for every `Close`, under the lock of `connections`, so one application that lets its
  queue run full keeps this call waiting and every other one that comes to the lock (`Deadlock` says what
  else may then wait). Where no payload takes the last place of a queue (`LeavesRoom`), there is room for
  every `Close` (`Roomy`), and any call can be brought to its end by its own steps and those of the calls
  that hold the lock before it (`call_returns`).
-/
import RemoteX11.Server.Deadlock

namespace RemoteX11.Server.Waits

open RemoteX11.Lib RemoteX11.Protocol RemoteX11.Sessions
open RemoteX11.Flow (channelBuffer)
open RemoteX11.Server.Relays (Relay RelayOp RelayEvent)

/-- A step of a `destroy_session` call, or of a call that gives the lock of `connections` back. -/
def Dismantles : Action → Prop
  | .base (.mgr (.destroyStep _)) => True
  | .base (.mgr (.unregisterStep _)) => True
  | .lock _ => True
  | .closeNext => True
  | .unlock => True
  | _ => False

namespace State

variable {s t : State} {a : Action} {d p : Nat} {m m' : Manager}

/-! ## Room for `Close` -/

/-- A payload that is delivered leaves a place in the queue. -/
def LeavesRoom (s : State) : Action → Prop
  | .deliver r => ∀ relay ∈ s.base.relays[r]?, ∀ x ∈ (s.inbox relay.client).delivering,
    ∀ pump ∈ s.pumps[x.1]?, pump.closed = false → pump.commands.length + 1 < channelBuffer
  | _ => True

instance (s : State) (a : Action) : Decidable (s.LeavesRoom a) :=
  match a with
  | .deliver r => inferInstanceAs (Decidable (∀ relay ∈ s.base.relays[r]?,
      ∀ x ∈ (s.inbox relay.client).delivering, ∀ pump ∈ s.pumps[x.1]?,
        pump.closed = false → pump.commands.length + 1 < channelBuffer))
  | .base _ | .register .. | .frame .. | .event _ | .dropEvents _ | .lock _ | .closeNext | .sendClose
  | .unlock | .pump .. => isTrue trivial

/-- The call that holds the lock has yet to close connections, and nobody else holds it. -/
def Holds (m : Manager) (d : Nat) : Prop :=
  m.connectionsFree = true ∧ ∃ call ids, m.destroys[d]? = some call ∧ call.phase = .closing ids

/-- Every pump that `connections` leads to has room for `Close`, and nobody awaits any. -/
structure Roomy (s : State) : Prop where
  senders : ∀ id p, s.senders.get id = some p →
    ∃ pump, s.pumps[p]? = some pump ∧ pump.id = id ∧ pump.full = false
  holder : ∀ h, s.holder = some h → h.awaiting = none ∧ Holds s.base.mgr h.call

/-! ### The call that holds the lock -/

/-- The step of the manager is none of the call `d`, and takes no lock of `connections`. -/
def Apace (m : Manager) (d : Nat) : Sessions.Action → Prop
  | .destroyStep i => i ≠ d
  | .unregisterStep k => ∀ call ∈ m.unregisters[k]?, call.phase ≠ .removing
  | _ => True

theorem connectionsFree_step {b : Sessions.Action} (h : m.step b = some m')
    (hfree : m.connectionsFree = true)
    (hb : ∀ k, b = .unregisterStep k → ∀ call ∈ m.unregisters[k]?, call.phase ≠ .removing) :
    m'.connectionsFree = true := by
  unfold Manager.connectionsFree at hfree ⊢
  cases b with
  | unregisterStep k =>
    obtain ⟨call, hk, h⟩ := Option.bind_eq_some_iff.mp h
    have hquiet := List.all_eq_true.mp hfree call (List.mem_of_getElem? hk)
    rcases Manager.unregisterStep_cases h with ⟨disp, hp, -⟩ | ⟨hp, -⟩ | ⟨disp, ids, hp, -⟩ | ⟨disp, hp, -⟩
    · exact absurd hp (hb k rfl call hk)
    · exact absurd hp (hb k rfl call hk)
    · simp [hp] at hquiet
    · simp [hp] at hquiet
  | appEnd i =>
    obtain ⟨app, -, h⟩ := Option.bind_eq_some_iff.mp h
    rcases Manager.appEnd_cases h with ⟨-, rfl⟩ | ⟨-, rfl⟩
    · exact hfree
    · exact List.all_eq_true.mpr (forall_mem_snoc (List.all_eq_true.mp hfree) rfl)
  | unregister c =>
    obtain ⟨-, rfl⟩ := Manager.step_unregister h
    exact List.all_eq_true.mpr (forall_mem_snoc (List.all_eq_true.mp hfree) rfl)
  | _ => rwa [(Manager.step_frame h).unregisters rfl]

theorem destroys_step {b : Sessions.Action} {call : DestroyCall} (h : m.step b = some m')
    (hd : m.destroys[d]? = some call) (hb : b ≠ .destroyStep d) : m'.destroys[d]? = some call := by
  cases Manager.step_destroys h with
  | keep hdestroys => rw [hdestroys, hd]
  | call disp grace hdestroys =>
    obtain ⟨hlt, -⟩ := List.getElem?_eq_some_iff.mp hd
    rw [hdestroys, List.getElem?_append_left hlt, hd]
  | own i other ha hi hstep =>
    obtain ⟨phase, hdestroys, -⟩ := Manager.destroyStep_destroys hstep
    have hne : i ≠ d := fun hid => hb (hid ▸ ha)
    rw [hdestroys, List.getElem?_set_ne hne, hd]

theorem holds_step {b : Sessions.Action} (hholds : Holds m d) (h : m.step b = some m')
    (hb : Apace m d b) : Holds m' d := by
  obtain ⟨hfree, call, ids, hd, hp⟩ := hholds
  refine ⟨connectionsFree_step h hfree ?_, call, ids, destroys_step h hd ?_, hp⟩
  · rintro k rfl
    exact hb
  · rintro rfl
    exact hb rfl

theorem apace_of_begins {b : Sessions.Action} (h : Relays.State.begins b = true) : Apace m d b := by
  cases b <;> trivial

/-- A step of the relays that is none of the manager's own, or a harmless one. -/
theorem holds_base {b : Relays.Action} (hholds : Holds s.base.mgr d)
    (h : s.base.step b = some t.base) (hb : ∀ c, b = .mgr c → Apace s.base.mgr d c) :
    Holds t.base.mgr d := by
  rcases Relays.State.step_mgr h with hsame | ⟨c, hstep, rfl | hbegins⟩
  · exact hsame ▸ hholds
  · exact holds_step hholds hstep (hb c rfl)
  · exact holds_step hholds hstep (apace_of_begins hbegins)

/-- What may be done while the lock is held is harmless to its holder. -/
theorem apace_of_mayTake {h : Holder} {c : Sessions.Action} (hholder : s.holder = some h)
    (hholds : Holds s.base.mgr h.call) (hmay : s.mayTake (.mgr c) = true) :
    Apace s.base.mgr h.call c := by
  obtain ⟨-, call, ids, hd, hp⟩ := hholds
  cases c with
  | destroyStep i =>
    rintro rfl
    simp [mayTake, hd, hp] at hmay
  | unregisterStep k =>
    intro call' hk hphase
    simp only [Option.mem_def] at hk
    simp [mayTake, hk, hphase, hholder] at hmay
  | _ => trivial

/-! ### A step keeps the room -/

/-- The pumps and the senders are what they were. -/
theorem Roomy.base (h : Roomy s) (hsenders : ∀ id p, t.senders.get id = some p → s.senders.get id = some p)
    (hpumps : t.pumps = s.pumps) (hholder : ∀ h, t.holder = some h → h.awaiting = none ∧ Holds t.base.mgr h.call) :
    Roomy t where
  senders id p hid := by
    rw [hpumps]
    exact h.senders id p (hsenders id p hid)
  holder := hholder

theorem full_of_push {pump : Pump} {cmd : X11RelayToConn} (h : (pump.push cmd).full = true) :
    pump.closed = false ∧ channelBuffer ≤ pump.commands.length + 1 := by
  unfold Pump.push at h
  split at h
  · rename_i hclosed
    simp [Pump.full, hclosed] at h
  · rename_i hopen
    have hsame : Pump.closed { pump with commands := pump.commands ++ [cmd] } = pump.closed := rfl
    simp only [Pump.full, hsame, List.length_append, List.length_singleton, Bool.and_eq_true,
      decide_eq_true_eq] at h
    exact ⟨Bool.eq_false_iff.mpr hopen, h.2⟩

@[simp] theorem push_id (pump : Pump) (cmd : X11RelayToConn) : (pump.push cmd).id = pump.id := by
  unfold Pump.push
  split <;> rfl

theorem baseStep_roomy {b : Relays.Action} (h : Roomy s) (ht : s.baseStep b = some t) : Roomy t := by
  unfold baseStep at ht
  split at ht
  · rename_i hmay
    obtain ⟨base, hbase, rfl⟩ := Option.map_eq_some_iff.mp ht
    refine h.base (fun id p hid => ?_) rfl fun holder hholder => ?_
    · unfold sendersAfter at hid
      dsimp only at hid
      split at hid
      · split at hid
        · exact Table.get_of_get_remove hid
        · exact hid
      · exact hid
    · obtain ⟨hawaiting, hholds⟩ := h.holder holder hholder
      refine ⟨hawaiting, holds_base (t := { s with base := base }) hholds hbase ?_⟩
      rintro c rfl
      exact apace_of_mayTake hholder hholds hmay
  · contradiction

theorem register_roomy {i : Nat} {duplex : Bool} (h : Roomy s) (ht : s.register i duplex = some t) :
    Roomy t := by
  unfold register at ht
  split at ht
  · rename_i id disp origin client hi hholder
    obtain ⟨base, hbase, rfl⟩ := Option.map_eq_some_iff.mp ht
    refine ⟨fun id' p hid => ?_, fun holder hsome => ?_⟩
    · rw [Table.get_put] at hid
      split at hid
      · rename_i hsame
        obtain rfl := Option.some.inj hid
        refine ⟨.new i id client duplex, List.getElem?_concat_length, hsame.symm, ?_⟩
        simp [Pump.full, Pump.new, channelBuffer]
      · obtain ⟨pump, hp, hrest⟩ := h.senders id' p hid
        obtain ⟨hlt, -⟩ := List.getElem?_eq_some_iff.mp hp
        exact ⟨pump, by rw [List.getElem?_append_left hlt]; exact hp, hrest⟩
    · exact absurd (hholder.symm.trans hsome) fun hnone => by cases hnone
  · contradiction

/-- A relay takes something up. -/
theorem relay_roomy {r : Nat} {e : RelayEvent} (h : Roomy s) (hbase : s.base.step (.event r e) = some t.base)
    (hsenders : t.senders = s.senders) (hpumps : t.pumps = s.pumps) (hholder : t.holder = s.holder) :
    Roomy t := by
  refine h.base (fun id p hid => hsenders ▸ hid) hpumps fun holder hsome => ?_
  obtain ⟨hawaiting, hholds⟩ := h.holder holder (hholder ▸ hsome)
  exact ⟨hawaiting, holds_base hholds hbase nofun⟩

theorem event_roomy {relay : Relay} {r : Nat} (h : Roomy s) (ht : s.event r relay = some t) : Roomy t := by
  unfold event at ht
  split at ht
  · split at ht
    · contradiction
    · rename_i e events hevents
      dsimp only at ht
      cases e with
      | connected id | data id len =>
        obtain rfl := Option.some.inj ht
        exact h.base (fun _ _ hid => hid) rfl h.holder
      | congested edge | disconnected id =>
        obtain ⟨base, hbase, rfl⟩ := Option.map_eq_some_iff.mp ht
        exact relay_roomy h hbase rfl rfl rfl
  · contradiction

/-- A command comes into the queue of one pump. -/
theorem Roomy.push {pump : Pump} {cmd : X11RelayToConn} (h : Roomy s) (hp : s.pumps[p]? = some pump)
    (hpumps : t.pumps = s.pumps.set p (pump.push cmd))
    (hsenders : ∀ id q, t.senders.get id = some q → s.senders.get id = some q ∧
      (q = p → (pump.push cmd).full = false))
    (hholder : ∀ h, t.holder = some h → h.awaiting = none ∧ Holds t.base.mgr h.call) : Roomy t where
  senders id q hid := by
    obtain ⟨hold, hfull⟩ := hsenders id q hid
    obtain ⟨old, hq, hid', hroom⟩ := h.senders id q hold
    rw [hpumps]
    rcases getElem?_set_of (pump.push cmd) hp hq with ⟨rfl, rfl, hnew⟩ | ⟨-, hsame⟩
    · exact ⟨_, hnew, by simpa using hid', hfull rfl⟩
    · exact ⟨old, hsame, hid', hroom⟩
  holder := hholder

theorem deliver_roomy {relay : Relay} {r : Nat} (h : Roomy s) (hr : s.base.relays[r]? = some relay)
    (hroom : s.LeavesRoom (.deliver r)) (ht : s.deliver relay = some t) : Roomy t := by
  unfold deliver at ht
  split at ht
  · split at ht
    · rename_i p len hdelivering
      obtain ⟨pump, hp, ht⟩ := Option.bind_eq_some_iff.mp ht
      dsimp only at ht
      split at ht
      · contradiction
      · split at ht
        · obtain ⟨base, hbase, rfl⟩ := Option.map_eq_some_iff.mp ht
          refine h.base (fun _ _ hid => hid) rfl fun holder hholder => ?_
          obtain ⟨hawaiting, hholds⟩ := h.holder holder hholder
          exact ⟨hawaiting, holds_base (t := { s with base := base }) hholds hbase nofun⟩
        · rename_i hopen
          obtain rfl := Option.some.inj ht
          refine h.push hp rfl (fun id q hid => ⟨hid, fun _ => ?_⟩) h.holder
          have hplace := hroom relay hr (p, len) hdelivering pump hp (Bool.eq_false_iff.mpr hopen)
          by_contra hfull
          have := full_of_push (Bool.not_eq_false _ ▸ hfull)
          omega
    · contradiction
  · contradiction

theorem lock_roomy (h : Roomy s) (ht : s.lock d = some t) : Roomy t := by
  unfold lock at ht
  split at ht
  · rename_i disp grace ids hd hholder
    split at ht
    · rename_i hfree
      obtain rfl := Option.some.inj ht
      refine h.base (fun _ _ hid => hid) rfl fun holder hsome => ?_
      obtain rfl := Option.some.inj hsome
      exact ⟨rfl, hfree, _, ids, hd, rfl⟩
    · contradiction
  · contradiction

/-- With room in every queue the holder of the lock does not wait for its next `Close`. -/
theorem closeNext_eq (h : Roomy s) {id : ConnectionId} {rest : List ConnectionId}
    (hholder : s.holder = some ⟨d, id :: rest, none⟩) :
    ∃ t, s.closeNext = some t ∧ t.base = s.base ∧ t.holder = some ⟨d, rest, none⟩ ∧ Roomy t := by
  obtain ⟨-, hholds⟩ := h.holder _ hholder
  have hnext : ∀ u : State, u.base = s.base → u.holder = some ⟨d, rest, none⟩ →
      ∀ h, u.holder = some h → h.awaiting = none ∧ Holds u.base.mgr h.call := by
    intro u hbase hu holder hsome
    obtain rfl := Option.some.inj (hu.symm.trans hsome)
    exact ⟨rfl, hbase ▸ hholds⟩
  cases hp : s.senders.get id with
  | none =>
    refine ⟨{ s with holder := some ⟨d, rest, none⟩ }, ?_, rfl, rfl, ?_⟩
    · simp only [closeNext, hholder, hp]
    · exact h.base (fun _ _ hid => hid) rfl (hnext _ rfl rfl)
  | some p =>
    obtain ⟨pump, hpump, hid, hroom⟩ := h.senders id p hp
    refine ⟨{ s with
      senders := s.senders.remove id
      holder := some ⟨d, rest, none⟩
      pumps := s.pumps.set p (pump.push .close) }, ?_, rfl, rfl, ?_⟩
    · simp only [closeNext, hholder, hp, hpump, Option.map_some, sendCloseTo, hroom]
      rfl
    · refine h.push hpump rfl (fun id' q hq => ?_) (hnext _ rfl rfl)
      refine ⟨Table.get_of_get_remove hq, ?_⟩
      -- the pump is in `connections` under its own id only
      rintro rfl
      obtain ⟨pump', hpump', hid', -⟩ := h.senders id' q (Table.get_of_get_remove hq)
      obtain rfl := Option.some.inj (hpump.symm.trans hpump')
      dsimp only at hq
      rw [hid.symm.trans hid', Table.get_remove_self] at hq
      contradiction

theorem closeNext_roomy (h : Roomy s) (ht : s.closeNext = some t) : Roomy t := by
  unfold closeNext at ht
  split at ht
  · rename_i d id rest hholder
    obtain ⟨t', ht', -, -, hroomy⟩ := closeNext_eq h hholder
    have hsame : s.closeNext = some t := by
      simp only [closeNext, hholder]
      exact ht
    exact Option.some.inj (ht'.symm.trans hsame) ▸ hroomy
  · contradiction

/-- The lock is given back. -/
theorem unlock_eq (ht : s.unlock = some t) : ∃ d, s.holder = some ⟨d, [], none⟩ ∧
    s.base.step (.mgr (.destroyStep d)) = some t.base ∧ t = { s with base := t.base, holder := none } := by
  unfold unlock at ht
  split at ht
  · rename_i d hholder
    obtain ⟨base, hbase, rfl⟩ := Option.map_eq_some_iff.mp ht
    exact ⟨d, hholder, hbase, rfl⟩
  · contradiction

theorem unlock_roomy (h : Roomy s) (ht : s.unlock = some t) : Roomy t := by
  obtain ⟨d, -, -, heq⟩ := unlock_eq ht
  rw [heq]
  exact h.base (fun _ _ hid => hid) rfl nofun

theorem pump_roomy {act : PumpAction} (h : Roomy s) (ht : s.step (.pump p act) = some t) : Roomy t := by
  obtain ⟨pump, pump', hp, heffect⟩ := step_pump ht
  refine ⟨fun id q hid => ?_, fun holder hsome => ?_⟩
  · obtain ⟨old, hq, hid', hroom⟩ := h.senders id q (heffect.senders ▸ hid)
    rw [heffect.pumps]
    rcases getElem?_set_of pump' hp hq with ⟨rfl, rfl, hnew⟩ | ⟨-, hsame⟩
    · refine ⟨pump', hnew, heffect.id.trans hid', ?_⟩
      by_contra hfull
      rw [heffect.full (Bool.not_eq_false _ ▸ hfull)] at hroom
      contradiction
    · exact ⟨old, hsame, hid', hroom⟩
  · obtain ⟨hawaiting, hholds⟩ := h.holder holder (heffect.holder ▸ hsome)
    refine ⟨hawaiting, ?_⟩
    rcases heffect.base with hsame | ⟨b, hb, hpump⟩
    · exact hsame ▸ hholds
    · refine holds_base hholds hb ?_
      rintro c rfl
      cases c <;> trivial

theorem step_roomy (h : Roomy s) (hroom : s.LeavesRoom a) (ht : s.step a = some t) : Roomy t := by
  cases a with
  | base b => exact baseStep_roomy h ht
  | register i duplex => exact register_roomy h ht
  | frame r e =>
    obtain ⟨relay, -, ht⟩ := Option.bind_eq_some_iff.mp ht
    unfold frame at ht
    split at ht
    · obtain ⟨base, hbase, rfl⟩ := Option.map_eq_some_iff.mp ht
      exact relay_roomy h hbase rfl rfl rfl
    · contradiction
  | event r =>
    obtain ⟨relay, -, ht⟩ := Option.bind_eq_some_iff.mp ht
    exact event_roomy h ht
  | deliver r =>
    obtain ⟨relay, hr, ht⟩ := Option.bind_eq_some_iff.mp ht
    exact deliver_roomy h hr hroom ht
  | dropEvents r =>
    obtain ⟨relay, -, ht⟩ := Option.bind_eq_some_iff.mp ht
    split at ht
    · obtain rfl := Option.some.inj ht
      exact h.base (fun _ _ hid => hid) rfl h.holder
    · contradiction
  | lock d => exact lock_roomy h ht
  | closeNext => exact closeNext_roomy h ht
  | sendClose =>
    -- nobody awaits room
    simp only [step, sendClose] at ht
    split at ht
    · rename_i d rest p hholder
      exact absurd (h.holder _ hholder).1 fun hnone => by cases hnone
    · contradiction
  | unlock => exact unlock_roomy h ht
  | pump p act => exact pump_roomy h ht

theorem init_roomy (high low sockBuf : Nat) : Roomy (init high low sockBuf) where
  senders _ _ h := nomatch h
  holder _ h := nomatch h

/-- A step is one of the session manager, or none. -/
theorem step_manager (h : s.step a = some t) :
    t.base.mgr = s.base.mgr ∨ ∃ c, s.base.mgr.step c = some t.base.mgr := by
  rcases step_base h with hsame | ⟨b, hb, -⟩
  · exact .inl (by rw [hsame])
  · exact (Relays.State.step_mgr hb).imp_right fun ⟨c, hstep, _⟩ => ⟨c, hstep⟩

/-! ## The call comes to its end -/

/-- The call that holds the lock gives it back, when it has told its connections to close. -/
theorem lock_released (h : Roomy s) {rest : List ConnectionId} (hholder : s.holder = some ⟨d, rest, none⟩) :
    ∃ bs t, (∀ b ∈ bs, Dismantles b) ∧ run step s bs = some t ∧ Roomy t ∧ t.holder = none ∧
      s.base.mgr.step (.destroyStep d) = some t.base.mgr := by
  induction rest generalizing s with
  | nil =>
    obtain ⟨-, hfree, call, ids, hd, hp⟩ := h.holder _ hholder
    have hdone : call.phase ≠ .done := by simp [hp]
    obtain ⟨m, hm⟩ := Manager.destroyStep_enabled d hdone hfree
    have hstep : s.base.mgr.step (.destroyStep d) = some m := by
      simp only [Manager.step, hd, Option.bind_some, hm]
    have hunlock : s.step .unlock = some { s with
        base := { s.base with mgr := m, flows := s.base.flowsAfter (.destroyStep d) }
        holder := none } := by
      simp only [step, unlock, hholder, Relays.State.step, Relays.State.madeByRelay, hstep,
        Option.map_some]
      rfl
    refine ⟨[.unlock], _, fun b hb => ?_, run_cons_eq_some.mpr ⟨_, hunlock, rfl⟩, unlock_roomy h hunlock,
      rfl, hstep⟩
    exact List.mem_singleton.mp hb ▸ trivial
  | cons id rest ih =>
    obtain ⟨u, hu, hbase, hnext, hroomy⟩ := closeNext_eq h hholder
    obtain ⟨bs, t, hbs, hrun, ht⟩ := ih hroomy hnext
    refine ⟨.closeNext :: bs, t, fun b hb => ?_, run_cons_eq_some.mpr ⟨u, hu, hrun⟩, hbase ▸ ht⟩
    rcases List.mem_cons.mp hb with rfl | hb
    · trivial
    · exact hbs b hb

/-- A step of the manager that nothing keeps waiting. -/
theorem managerStep {c : Sessions.Action} (hmay : s.mayTake (.mgr c) = true)
    (hown : Relays.State.madeByRelay c = false) (hstep : s.base.mgr.step c = some m) :
    ∃ t, s.step (.base (.mgr c)) = some t ∧ t.base.mgr = m ∧ t.holder = s.holder := by
  refine ⟨{ s with
    base := { s.base with mgr := m, flows := s.base.flowsAfter c }
    senders := s.sendersAfter (.mgr c)
    inboxes := s.inboxesAfter (.mgr c) }, ?_, rfl, rfl⟩
  simp only [step, baseStep, hmay, if_true, Relays.State.step, hown, Bool.false_eq_true, if_false, hstep,
    Option.map_some]

/-- With the lock free, a call does its next section. -/
theorem section_taken (h : Roomy s) (hholder : s.holder = none) {call : DestroyCall}
    (hd : s.base.mgr.destroys[d]? = some call) (hdone : call.phase ≠ .done)
    (hfree : s.base.mgr.connectionsFree = true) :
    ∃ bs t, (∀ b ∈ bs, Dismantles b) ∧ run step s bs = some t ∧ Roomy t ∧ t.holder = none ∧
      s.base.mgr.step (.destroyStep d) = some t.base.mgr := by
  by_cases hclosing : ∃ ids, call.phase = .closing ids
  · obtain ⟨ids, hp⟩ := hclosing
    obtain ⟨disp, grace, phase⟩ := call
    obtain rfl : phase = .closing ids := hp
    have hlock : s.step (.lock d) = some { s with holder := some ⟨d, ids, none⟩ } := by
      simp only [step, lock, hd, hholder, hfree, if_true]
    obtain ⟨bs, t, hbs, hrun, hrest⟩ := lock_released (lock_roomy h hlock) rfl
    refine ⟨.lock d :: bs, t, fun b hb => ?_, run_cons_eq_some.mpr ⟨_, hlock, hrun⟩, hrest⟩
    rcases List.mem_cons.mp hb with rfl | hb
    · trivial
    · exact hbs b hb
  · obtain ⟨m, hm⟩ := Manager.destroyStep_enabled d hdone hfree
    have hstep : s.base.mgr.step (.destroyStep d) = some m := by
      simp only [Manager.step, hd, Option.bind_some, hm]
    have hmay : s.mayTake (.mgr (.destroyStep d)) = true := by
      simp only [mayTake, hd, Option.map_some]
      split
      · rename_i ids hp
        exact absurd ⟨ids, Option.some.inj hp⟩ hclosing
      · rfl
    obtain ⟨t, ht, rfl, hsame⟩ := managerStep hmay rfl hstep
    refine ⟨[.base (.mgr (.destroyStep d))], t, fun b hb => ?_, run_cons_eq_some.mpr ⟨t, ht, rfl⟩,
      baseStep_roomy h ht, hsame.trans hholder, hstep⟩
    exact List.mem_singleton.mp hb ▸ trivial

/-- The calls of `unregister_x11_connection` that hold the lock of `connections`. -/
def unlisting (m : Manager) : Nat :=
  total (fun call => match call.phase with | .unlisting _ => 1 | _ => 0) m.unregisters

theorem exists_unlisting (hfree : m.connectionsFree = false) :
    ∃ (k : Nat) (call : UnregisterCall) (disp : DisplayNumber),
      m.unregisters[k]? = some call ∧ call.phase = .unlisting disp := by
  obtain ⟨call, hmem, hp⟩ := List.all_eq_false.mp hfree
  obtain ⟨k, hk⟩ := List.mem_iff_getElem?.mp hmem
  cases hphase : call.phase with
  | unlisting disp => exact ⟨k, call, disp, hk, hphase⟩
  | removing | done => simp [hphase] at hp

/-- An `unregister_x11_connection` that holds the lock of `connections` gives it back. -/
theorem unlisting_ends {k : Nat} {call : UnregisterCall} {disp : DisplayNumber}
    (hk : m.unregisters[k]? = some call) (hp : call.phase = .unlisting disp) :
    ∃ m', m.step (.unregisterStep k) = some m' ∧ m'.destroys = m.destroys ∧
      unlisting m' < unlisting m := by
  have hstep : ∃ m', m.unregisterStep k call = some m' := by
    simp only [Manager.unregisterStep, hp]
    split <;> exact ⟨_, rfl⟩
  obtain ⟨m', hm'⟩ := hstep
  have hdone : m'.unregisters = m.unregisters.set k { call with phase := .done } := by
    rcases Manager.unregisterStep_cases hm' with ⟨disp, hp', -⟩ | ⟨hp', -⟩ | ⟨disp, ids, -, -, rfl⟩ |
      ⟨disp, -, -, rfl⟩
    · simp [hp] at hp'
    · simp [hp] at hp'
    · rfl
    · rfl
  have htotal := total_set (fun call : UnregisterCall =>
    match call.phase with | .unlisting _ => 1 | _ => 0) { call with phase := .done } hk
  refine ⟨m', by simp only [Manager.step, hk, Option.bind_some, hm'], ?_, ?_⟩
  · rw [Manager.unregisterStep_frame hm']
  · unfold unlisting
    rw [hdone]
    simp only [hp] at htotal
    omega

/-- What is left of the call `d`, and of those that hold the lock before it. -/
def callWork (d : Nat) (s : State) : Nat :=
  2 * ((s.base.mgr.destroys[d]?.map fun call => call.phase.left).getD 0 + unlisting s.base.mgr) +
    s.holder.isSome.toNat

/-- A section of a call moves this call only. -/
theorem left_of_step {j : Nat} (h : m.step (.destroyStep j) = some m') :
    unlisting m' = unlisting m ∧
      (m'.destroys[d]?.map fun call => call.phase.left).getD 0 ≤
        (m.destroys[d]?.map fun call => call.phase.left).getD 0 ∧
      (j = d → (m'.destroys[d]?.map fun call => call.phase.left).getD 0 <
        (m.destroys[d]?.map fun call => call.phase.left).getD 0) := by
  obtain ⟨call, hj, hstep⟩ := Option.bind_eq_some_iff.mp h
  obtain ⟨hlt, -⟩ := List.getElem?_eq_some_iff.mp hj
  obtain ⟨phase, hdestroys, hless, -⟩ := Manager.destroyStep_destroys hstep
  have hunregisters : unlisting m' = unlisting m := by
    rw [Manager.destroyStep_frame hstep]
    rfl
  rw [hdestroys]
  by_cases hjd : j = d
  · subst hjd
    simp only [List.getElem?_set_self hlt, hj, Option.map_some, Option.getD_some]
    exact ⟨hunregisters, hless.le, fun _ => hless⟩
  · rw [List.getElem?_set_ne hjd]
    exact ⟨hunregisters, le_rfl, fun hid => absurd hid hjd⟩

/-- **A call returns.** With room in every queue, a `destroy_session` call is brought to its end by its own
    steps and those of the calls that hold the lock before it; what all of these keep holds in the end. -/
theorem call_returns {I : Manager → Prop}
    (hdestroy : ∀ m j m', I m → m.step (.destroyStep j) = some m' → I m')
    (hunregister : ∀ m k m', I m → m.step (.unregisterStep k) = some m' → I m')
    (h : Roomy s) (hI : I s.base.mgr) {call : DestroyCall} (hd : s.base.mgr.destroys[d]? = some call) :
    ∃ bs t call', (∀ b ∈ bs, Dismantles b) ∧ run step s bs = some t ∧ Roomy t ∧ I t.base.mgr ∧
      t.base.mgr.destroys[d]? = some call' ∧ call'.phase = .done := by
  have hprogress : ∀ u : State, (Roomy u ∧ I u.base.mgr ∧ d < u.base.mgr.destroys.length) →
      (∃ call', u.base.mgr.destroys[d]? = some call' ∧ call'.phase = .done) ∨
      ∃ bs t, (∀ b ∈ bs, Dismantles b) ∧ run step u bs = some t ∧
        (Roomy t ∧ I t.base.mgr ∧ d < t.base.mgr.destroys.length) ∧ callWork d t < callWork d u := by
    rintro u ⟨hu, hIu, hlt⟩
    have hd := List.getElem?_eq_getElem hlt
    by_cases hdone : (u.base.mgr.destroys[d]).phase = .done
    · exact .inl ⟨_, hd, hdone⟩
    refine .inr ?_
    cases hholder : u.holder with
    | some holder =>
      -- another call, or this one, has the lock
      obtain ⟨j, rest, awaiting⟩ := holder
      obtain rfl : awaiting = none := (hu.holder _ hholder).1
      obtain ⟨bs, t, hbs, hrun, hroomy, hnone, hstep⟩ := lock_released hu hholder
      obtain ⟨hunlisting, hleft, -⟩ := left_of_step (d := d) hstep
      refine ⟨bs, t, hbs, hrun, ⟨hroomy, hdestroy _ _ _ hIu hstep,
        hlt.trans_le (Manager.step_destroys_length hstep)⟩, ?_⟩
      simp only [callWork, hunlisting, hholder, hnone, Option.isSome, Bool.toNat_true, Bool.toNat_false]
      omega
    | none =>
      cases hfree : u.base.mgr.connectionsFree with
      | true =>
        obtain ⟨bs, t, hbs, hrun, hroomy, hnone, hstep⟩ := section_taken hu hholder hd hdone hfree
        obtain ⟨hunlisting, -, hless⟩ := left_of_step (d := d) hstep
        refine ⟨bs, t, hbs, hrun, ⟨hroomy, hdestroy _ _ _ hIu hstep,
          hlt.trans_le (Manager.step_destroys_length hstep)⟩, ?_⟩
        have := hless rfl
        simp only [callWork, hunlisting, hholder, hnone]
        omega
      | false =>
        obtain ⟨k, unregister, disp, hk, hp⟩ := exists_unlisting hfree
        obtain ⟨m', hstep, hdestroys, hless⟩ := unlisting_ends hk hp
        have hmay : u.mayTake (.mgr (.unregisterStep k)) = true := by simp [mayTake, hk, hp]
        obtain ⟨t, ht, rfl, hsame⟩ := managerStep hmay rfl hstep
        refine ⟨[.base (.mgr (.unregisterStep k))], t, fun b hb => ?_,
          run_cons_eq_some.mpr ⟨t, ht, rfl⟩, ⟨baseStep_roomy hu ht, hunregister _ _ _ hIu hstep,
            by rwa [hdestroys]⟩, ?_⟩
        · exact List.mem_singleton.mp hb ▸ trivial
        · simp only [callWork, hdestroys, hsame]
          omega
  obtain ⟨hlt, -⟩ := List.getElem?_eq_some_iff.mp hd
  obtain ⟨bs, t, hbs, hrun, ⟨hroomy, hIt, -⟩, call', hd', hdone⟩ :=
    runs_reach (callWork d) hprogress ⟨h, hI, hlt⟩
  exact ⟨bs, t, call', hbs, hrun, hroomy, hIt, hd', hdone⟩

end State

end RemoteX11.Server.Waits
