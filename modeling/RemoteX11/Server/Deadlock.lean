/-
  Can the destruction of a session bring its parties to a halt?

  `destroy_session` awaits room for `Close` under the lock of `connections`. The room comes from the
  application's pump, whose write waits for the application; an application that is in a write of its own
  waits for the pump's other leg, which waits for the relay; and a relay that needs the lock, or made the
  call, waits for `destroy_session`. The lock order of the session manager does not see this cycle, and
  nothing breaks it but the end of the application (`wait_cycle_stuck`).

  `no_wait_cycle`: there is none as long as `destroy_session` never awaits room while the application is
  held in a write and the relay is in a turn (`StaysApart`).
-/
import RemoteX11.Lib.Keyed
import RemoteX11.Server.Egress
import RemoteX11.Server.Waits

namespace RemoteX11.Server.Waits

open RemoteX11.Lib RemoteX11.Protocol RemoteX11.Sessions
open RemoteX11.Flow (channelBuffer)
open RemoteX11.Server.Relays (Relay RelayOp RelayEvent)

/-- The steps of the calls that want the lock, of the pump `p` with its application, and of the relay
    `r`; an application may go away at any time. -/
def Action.ofParty (p r : Nat) : Action → Bool
  | .lock _ | .closeNext | .sendClose | .unlock => true
  | .pump q a => q = p && a != .endLegs
  | .frame q _ | .event q | .deliver q => q = r
  | .base (.relayStep q) | .base (.relayEnd q) => q = r
  | _ => false

namespace State

/-! ## The cycle -/

/-- The write leg waits for the application. -/
def WriteBlocked (s : State) (pump : Pump) : Prop :=
  pump.phase = .relaying ∧
    ∃ len left, pump.writing = some (len, left) ∧ 0 < left ∧ s.sockBuf ≤ pump.socket.toApp

/-- The application waits for the read leg, and does not read meanwhile. -/
def AppBlocked (s : State) (pump : Pump) : Prop :=
  pump.socket.duplex = false ∧ 0 < pump.socket.pending ∧ s.sockBuf ≤ pump.socket.fromApp

/-- The read leg waits for the relay: for room in its event channel, or for the gate. -/
def ReadBlocked (s : State) (pump : Pump) : Prop :=
  pump.units ≠ [] ∧ s.eventsFull pump.client = true ∨ pump.units = [] ∧ s.base.gated pump.id = true

/-- The operation waits for the lock: it is a section under it, or awaits a call that waits for it or
    holds it. -/
def OpWaits (s : State) (relay : Relay) : RelayOp → Prop
  | .awaitDestroy k => ∃ call ids, s.base.mgr.destroys[k]? = some call ∧ call.phase = .closing ids
  | .awaitUnregister k _ => ∃ call, s.base.mgr.unregisters[k]? = some call ∧ call.phase = .removing
  | op => locks relay op = true

/-- The call `d` waits for the pump, the pump's write for the application, the application for the
    pump's read, this for the relay, and the relay for the call. -/
structure WaitCycle (s : State) (d p r : Nat) (pump : Pump) (relay : Relay) : Prop where
  awaits : ∃ rest, s.holder = some ⟨d, rest, some p⟩
  pump_eq : s.pumps[p]? = some pump
  full : pump.full = true
  write : s.WriteBlocked pump
  app : s.AppBlocked pump
  read : s.ReadBlocked pump
  relay_eq : s.base.relays[r]? = some relay
  consumes : relay.client = pump.client
  relay : ∃ op rest, relay.todo = op :: rest ∧ s.OpWaits relay op

variable {s t : State} {a : Action} {d p r : Nat} {pump : Pump} {relay : Relay}

theorem pump_stuck {act : PumpAction} (hact : act ≠ .endLegs) (hwrite : s.WriteBlocked pump)
    (happ : s.AppBlocked pump) (hread : s.ReadBlocked pump) : s.pumpStep p pump act = none := by
  obtain ⟨hphase, len, left, hwriting, hleft, hroom⟩ := hwrite
  obtain ⟨hduplex, hpending, hfull⟩ := happ
  cases act with
  | announce => simp [pumpStep, hphase]
  | read n units =>
    rcases hread with ⟨hunits, -⟩ | ⟨-, hgated⟩
    · simp [pumpStep, hunits]
    · simp [pumpStep, hgated]
  | report =>
    rcases hread with ⟨hunits, hevents⟩ | ⟨hunits, -⟩
    · obtain ⟨u, us, hcons⟩ := List.exists_cons_of_ne_nil hunits
      simp [pumpStep, hphase, hcons, hevents]
    · simp [pumpStep, hunits]
  | takeCommand => simp [pumpStep, hphase, hwriting]
  | write n =>
    have hno : ¬ (0 < n ∧ n ≤ left ∧ pump.socket.toApp + n ≤ s.sockBuf) := by omega
    simp [pumpStep, hphase, hwriting, hno]
  | finish =>
    obtain ⟨n, rfl⟩ := Nat.exists_eq_succ_of_ne_zero hleft.ne'
    simp [pumpStep, hphase, hwriting]
  | endLegs => exact absurd rfl hact
  | leave => simp [pumpStep, hphase]
  | appWrite n => simp [pumpStep, hpending.ne']
  | appFlush n =>
    have hno : ¬ (0 < n ∧ n ≤ pump.socket.pending ∧ pump.socket.fromApp + n ≤ s.sockBuf) := by omega
    simp [pumpStep, hno]
  | appRead n => simp [pumpStep, hduplex, hpending.ne']

/-- An operation that waits cannot be taken while the lock is held. -/
theorem op_stuck {op : RelayOp} {rest : List RelayOp} {h : Holder} (hholder : s.holder = some h)
    (hr : s.base.relays[r]? = some relay) (htodo : relay.todo = op :: rest)
    (hwaits : s.OpWaits relay op) : s.baseStep (.relayStep r) = none := by
  have hlocks : locks relay op = true → s.baseStep (.relayStep r) = none := by
    intro hlocks
    simp [baseStep, mayTake, hr, htodo, hlocks, hholder]
  have hperform : s.base.perform r relay op rest = none → s.baseStep (.relayStep r) = none := by
    intro hperform
    simp [baseStep, Relays.State.step, hr, htodo, hperform]
  cases op with
  | awaitDestroy k =>
    obtain ⟨⟨_, _, _⟩, ids, hk, rfl⟩ := hwaits
    exact hperform (by simp [Relays.State.perform, hk])
  | awaitUnregister k id =>
    obtain ⟨⟨_, _⟩, hk, rfl⟩ := hwaits
    exact hperform (by simp [Relays.State.perform, hk])
  | _ => exact hlocks hwaits

/-- **The cycle is a standstill.** None of its parties can take a step. -/
theorem wait_cycle_stuck (h : s.WaitCycle d p r pump relay) (ha : a.ofParty p r = true) :
    s.step a = none := by
  obtain ⟨hold, hholder⟩ := h.awaits
  obtain ⟨op, rest, htodo, hwaits⟩ := h.relay
  have hbusy : s.ready relay = false := by simp [ready, htodo]
  unfold Action.ofParty at ha
  split at ha
  · simp [step, lock, hholder]
  · simp [step, closeNext, hholder]
  · simp [step, sendClose, hholder, h.pump_eq, h.full]
  · simp [step, unlock, hholder]
  · rename_i q act
    simp only [Bool.and_eq_true, decide_eq_true_eq, bne_iff_ne] at ha
    obtain ⟨rfl, hact⟩ := ha
    simp [step, h.pump_eq, pump_stuck hact h.write h.app h.read]
  · obtain rfl := of_decide_eq_true ha
    simp [step, h.relay_eq, frame, hbusy]
  · obtain rfl := of_decide_eq_true ha
    simp [step, h.relay_eq, event, hbusy]
  · obtain rfl := of_decide_eq_true ha
    simp [step, h.relay_eq, deliver, htodo]
  · obtain rfl := of_decide_eq_true ha
    exact op_stuck hholder h.relay_eq htodo hwaits
  · obtain rfl := of_decide_eq_true ha
    simp [step, baseStep, Relays.State.step, h.relay_eq, htodo]
  · contradiction

/-! ## What a step does to the relays, to the pumps and to the holder of the lock -/

@[simp] theorem pushEvent_base (s : State) (client : String) (e : X11ConnToRelay) :
    (s.pushEvent client e).base = s.base := by
  unfold pushEvent
  split <;> rfl

@[simp] theorem pushEvent_pumps (s : State) (client : String) (e : X11ConnToRelay) :
    (s.pushEvent client e).pumps = s.pumps := by
  unfold pushEvent
  split <;> rfl

@[simp] theorem pushEvent_holder (s : State) (client : String) (e : X11ConnToRelay) :
    (s.pushEvent client e).holder = s.holder := by
  unfold pushEvent
  split <;> rfl

@[simp] theorem pushEvent_senders (s : State) (client : String) (e : X11ConnToRelay) :
    (s.pushEvent client e).senders = s.senders := by
  unfold pushEvent
  split <;> rfl

@[simp] theorem pushEvent_sockBuf (s : State) (client : String) (e : X11ConnToRelay) :
    (s.pushEvent client e).sockBuf = s.sockBuf := by
  unfold pushEvent
  split <;> rfl

/-- The application is in a write that its socket does not take, and reads nothing meanwhile. -/
def Held (s : State) (pump : Pump) : Prop :=
  pump.socket.duplex = false ∧ s.sockBuf < pump.socket.fromApp + pump.socket.pending

/-- What the pumps do to the relays and the session manager. -/
def ofPump : Relays.Action → Bool
  | .mgr (.appEnd _) => true
  | .discharge .. => true
  | _ => false

/-- What a step of a pump does: the pump is replaced, and the relays take no event from outside. -/
structure PumpEffect (s : State) (p : Nat) (pump : Pump) (act : PumpAction) (t : State) (pump' : Pump) :
    Prop where
  pumps : t.pumps = s.pumps.set p pump'
  id : pump'.id = pump.id
  client : pump'.client = pump.client
  full : pump'.full = true → pump.full = true
  senders : t.senders = s.senders
  holder : t.holder = s.holder
  sockBuf : t.sockBuf = s.sockBuf
  held : s.Held pump' → s.Held pump ∨
    ∃ n, act = .appWrite n ∧ pump' = { pump with socket := { pump.socket with pending := n } }
  base : t.base = s.base ∨ ∃ b, s.base.step b = some t.base ∧ ofPump b = true

theorem full_of_rest {commands : List X11RelayToConn} {cmd : X11RelayToConn}
    {writing : Option (Nat × Nat)} (hcommands : pump.commands = cmd :: commands)
    (h : Pump.full { pump with commands := commands, writing := writing } = true) :
    pump.full = true := by
  have hlen : pump.commands.length = commands.length + 1 := by rw [hcommands, List.length_cons]
  simp only [Pump.full, Pump.closed, Bool.and_eq_true, decide_eq_true_eq] at h ⊢
  exact ⟨h.1, by omega⟩

theorem endPump_effect {act : PumpAction} {pump' : Pump} (h : s.endPump p pump' = some t)
    (hid : pump'.id = pump.id) (hclient : pump'.client = pump.client)
    (hsocket : pump'.socket = pump.socket) :
    PumpEffect s p pump act t { pump' with phase := .ended } := by
  obtain ⟨base, hbase, rfl⟩ := Option.map_eq_some_iff.mp h
  refine ⟨rfl, hid, hclient, nofun, rfl, rfl, rfl, fun hheld => .inl ?_, .inr ⟨_, hbase, rfl⟩⟩
  simpa only [Held, hsocket] using hheld

theorem finishWrite_effect {act : PumpAction} {len : Nat} (h : s.finishWrite p pump len = some t) :
    PumpEffect s p pump act t { pump with writing := none } := by
  obtain ⟨base, hbase, ht⟩ := Option.map_eq_some_iff.mp h
  dsimp only at ht
  split at ht <;> subst ht
  · refine ⟨?_, rfl, rfl, fun hfull => hfull, ?_, ?_, ?_, .inl, .inr ⟨.discharge pump.id len, ?_, rfl⟩⟩
    · rw [pushEvent_pumps]
      rfl
    · rw [pushEvent_senders]
      rfl
    · rw [pushEvent_holder]
      rfl
    · rw [pushEvent_sockBuf]
      rfl
    · rw [pushEvent_base]
      exact hbase
  · exact ⟨rfl, rfl, rfl, fun hfull => hfull, rfl, rfl, rfl, .inl, .inr ⟨_, hbase, rfl⟩⟩

/-- The pump alone moves, after an event at most. -/
theorem PumpEffect.set {act : PumpAction} {s' : State} {pump' : Pump} (hpumps : s'.pumps = s.pumps)
    (hsenders : s'.senders = s.senders) (hholder : s'.holder = s.holder)
    (hbuf : s'.sockBuf = s.sockBuf) (hbase : s'.base = s.base) (hid : pump'.id = pump.id)
    (hclient : pump'.client = pump.client) (hfull : pump'.full = true → pump.full = true)
    (hheld : s.Held pump' → s.Held pump) : PumpEffect s p pump act (s'.setPump p pump') pump' where
  pumps := by rw [← hpumps]; rfl
  id := hid
  client := hclient
  full := hfull
  senders := hsenders
  holder := hholder
  sockBuf := hbuf
  held h := .inl (hheld h)
  base := .inl hbase

theorem pumpStep_effect {act : PumpAction} (h : s.pumpStep p pump act = some t) :
    ∃ pump', PumpEffect s p pump act t pump' := by
  cases act with
  | announce =>
    simp only [pumpStep] at h
    split at h
    · split at h
      · exact ⟨_, endPump_effect h rfl rfl rfl⟩
      · rename_i hready _
        obtain rfl := Option.some.inj h
        refine ⟨_, .set (by simp) (by simp) (by simp) (by simp) (by simp) rfl rfl (fun hfull => ?_) id⟩
        simpa [Pump.full, Pump.closed, hready.1] using hfull
    · contradiction
  | read n units =>
    simp only [pumpStep] at h
    split at h
    · obtain rfl := Option.some.inj h
      refine ⟨_, .set rfl rfl rfl rfl rfl rfl rfl id fun hheld => ⟨hheld.1, ?_⟩⟩
      have := hheld.2
      simp only at this
      omega
    · contradiction
  | report =>
    simp only [pumpStep] at h
    split at h
    · split at h
      · contradiction
      · split at h <;> obtain rfl := Option.some.inj h
        · exact ⟨_, .set rfl rfl rfl rfl rfl rfl rfl nofun id⟩
        · exact ⟨_, .set (by simp) (by simp) (by simp) (by simp) (by simp) rfl rfl id id⟩
    · contradiction
  | takeCommand =>
    simp only [pumpStep] at h
    split at h
    · rename_i hcommands
      obtain rfl := Option.some.inj h
      exact ⟨_, .set rfl rfl rfl rfl rfl rfl rfl (full_of_rest hcommands) id⟩
    · obtain rfl := Option.some.inj h
      exact ⟨_, .set rfl rfl rfl rfl rfl rfl rfl nofun id⟩
    · contradiction
  | write n =>
    simp only [pumpStep] at h
    split at h
    · split at h
      · obtain rfl := Option.some.inj h
        exact ⟨_, .set rfl rfl rfl rfl rfl rfl rfl id id⟩
      · contradiction
    · contradiction
  | finish =>
    simp only [pumpStep] at h
    split at h
    · exact ⟨_, finishWrite_effect h⟩
    · contradiction
  | endLegs =>
    simp only [pumpStep] at h
    split at h
    · obtain rfl := Option.some.inj h
      exact ⟨_, .set rfl rfl rfl rfl rfl rfl rfl nofun id⟩
    · contradiction
  | leave =>
    simp only [pumpStep] at h
    split at h
    · obtain ⟨base, hbase, rfl⟩ := Option.map_eq_some_iff.mp h
      rw [pushEvent_base] at hbase
      refine ⟨{ pump with phase := .ended }, ?_, rfl, rfl, nofun, ?_, ?_, ?_, .inl, .inr ⟨_, hbase, rfl⟩⟩
      · rw [← pushEvent_pumps s]
        rfl
      · rw [← pushEvent_senders s]
        rfl
      · rw [← pushEvent_holder s]
        rfl
      · rw [← pushEvent_sockBuf s]
        rfl
    · contradiction
  | appWrite n =>
    simp only [pumpStep] at h
    split at h
    · obtain rfl := Option.some.inj h
      exact ⟨_, rfl, rfl, rfl, id, rfl, rfl, rfl, fun _ => .inr ⟨n, rfl, rfl⟩, .inl rfl⟩
    · contradiction
  | appFlush n =>
    simp only [pumpStep] at h
    split at h
    · obtain rfl := Option.some.inj h
      refine ⟨_, .set rfl rfl rfl rfl rfl rfl rfl id fun hheld => ⟨hheld.1, ?_⟩⟩
      have := hheld.2
      simp only at this
      omega
    · contradiction
  | appRead n =>
    simp only [pumpStep] at h
    split at h
    · obtain rfl := Option.some.inj h
      exact ⟨_, .set rfl rfl rfl rfl rfl rfl rfl id id⟩
    · contradiction

/-- The pump in whose queue the holder of the lock awaits room. -/
def awaited (s : State) : Option Nat := s.holder.bind Holder.awaiting

/-- The pump that the holder of the lock comes to next. -/
def comesTo (s : State) : Option Nat :=
  match s.holder with
  | some ⟨_, id :: _, none⟩ => s.senders.get id
  | _ => none

/-- The relay that begins a turn of some length with the step; data and new connections are handled at
    once. -/
def turnOf (s : State) : Action → Option Nat
  | .frame r _ => some r
  | .event r =>
    match (s.base.relays[r]?).map fun relay => (s.inbox relay.client).events with
    | some (.congested _ :: _) | some (.disconnected _ :: _) => some r
    | _ => none
  | _ => none

/-- What a step that is not a pump's does. Pumps keep their sockets, and new ones are not held; relays
    begin turns as `turnOf` says; and only `closeNext` makes the holder wait. -/
structure QuietEffect (s : State) (a : Action) (t : State) : Prop where
  sockBuf : t.sockBuf = s.sockBuf
  held : ∀ (p : Nat) pump', t.pumps[p]? = some pump' → t.Held pump' →
    ∃ pump, s.pumps[p]? = some pump ∧ pump.client = pump'.client ∧ s.Held pump
  base : t.base = s.base ∨
    ∃ b, s.base.step b = some t.base ∧ ∀ r e, b = .event r e → s.turnOf a = some r
  awaited : ∀ p, t.awaited = some p → s.awaited = some p ∨
    a = .closeNext ∧ s.comesTo = some p ∧ ∃ pump, s.pumps[p]? = some pump ∧ pump.full = true

theorem held_same (hpumps : t.pumps = s.pumps) (hbuf : t.sockBuf = s.sockBuf) {pump' : Pump}
    (hp : t.pumps[p]? = some pump') (hheld : t.Held pump') :
    ∃ pump, s.pumps[p]? = some pump ∧ pump.client = pump'.client ∧ s.Held pump := by
  rw [hpumps] at hp
  unfold Held at hheld
  rw [hbuf] at hheld
  exact ⟨pump', hp, rfl, hheld⟩

@[simp] theorem push_client (pump : Pump) (cmd : X11RelayToConn) :
    (pump.push cmd).client = pump.client := by
  unfold Pump.push
  split <;> rfl

@[simp] theorem push_socket (pump : Pump) (cmd : X11RelayToConn) :
    (pump.push cmd).socket = pump.socket := by
  unfold Pump.push
  split <;> rfl

/-- A command changes neither the owner of a pump nor its socket. -/
theorem held_push {cmd : X11RelayToConn} (hp : s.pumps[p]? = some pump) {q : Nat} {pump' : Pump}
    (hq : t.pumps[q]? = some pump') (hheld : t.Held pump')
    (hpumps : t.pumps = s.pumps.set p (pump.push cmd)) (hbuf : t.sockBuf = s.sockBuf) :
    ∃ pump, s.pumps[q]? = some pump ∧ pump.client = pump'.client ∧ s.Held pump := by
  unfold Held at hheld
  rw [hbuf] at hheld
  rw [hpumps] at hq
  obtain ⟨rfl, rfl⟩ | ⟨-, hq⟩ := getElem?_of_set hq
  · exact ⟨pump, hp, by simp, by simpa only [Held, push_socket] using hheld⟩
  · exact ⟨pump', hq, rfl, hheld⟩

/-- The step of the base is not an event from outside. -/
theorem quiet_base {b : Relays.Action} (hb : s.base.step b = some t.base)
    (hno : ∀ r e, b ≠ .event r e) :
    t.base = s.base ∨ ∃ b, s.base.step b = some t.base ∧ ∀ r e, b = .event r e → s.turnOf a = some r :=
  .inr ⟨b, hb, fun r e h => absurd h (hno r e)⟩

theorem baseStep_quiet {b : Relays.Action} (h : s.baseStep b = some t) :
    QuietEffect s (.base b) t := by
  unfold baseStep at h
  split at h
  · rename_i hmay
    obtain ⟨base, hbase, rfl⟩ := Option.map_eq_some_iff.mp h
    refine ⟨rfl, fun _ _ => held_same rfl rfl, quiet_base hbase ?_, fun _ => .inl⟩
    rintro r e rfl
    simp [mayTake] at hmay
  · contradiction

theorem register_quiet {i : Nat} {duplex : Bool} (h : s.register i duplex = some t) :
    QuietEffect s (.register i duplex) t := by
  unfold register at h
  split at h
  · obtain ⟨base, hbase, rfl⟩ := Option.map_eq_some_iff.mp h
    refine ⟨rfl, fun q pump' hq hheld => ?_, quiet_base hbase (by simp), fun _ => .inl⟩
    rcases get_snoc hq with hq | ⟨-, rfl⟩
    · exact ⟨pump', hq, rfl, hheld⟩
    · exact absurd hheld.2 (Nat.not_lt_zero _)
  · contradiction

theorem frame_quiet {e : RelayEvent} (h : s.frame r relay e = some t) :
    QuietEffect s (.frame r e) t := by
  unfold frame at h
  split at h
  · obtain ⟨base, hbase, rfl⟩ := Option.map_eq_some_iff.mp h
    refine ⟨rfl, fun _ _ => held_same rfl rfl, .inr ⟨_, hbase, ?_⟩, fun _ => .inl⟩
    rintro r' e' heq
    cases heq
    rfl
  · contradiction

theorem event_quiet (hr : s.base.relays[r]? = some relay) (h : s.event r relay = some t) :
    QuietEffect s (.event r) t := by
  unfold event at h
  split at h
  · split at h
    · contradiction
    · rename_i e events hevents
      dsimp only at h
      cases e with
      | connected id | data id len =>
        obtain rfl := Option.some.inj h
        exact ⟨rfl, fun _ _ => held_same rfl rfl, .inl rfl, fun _ => .inl⟩
      | congested edge | disconnected id =>
        obtain ⟨base, hbase, rfl⟩ := Option.map_eq_some_iff.mp h
        refine ⟨rfl, fun _ _ => held_same rfl rfl, .inr ⟨_, hbase, ?_⟩, fun _ => .inl⟩
        rintro r' e' heq
        cases heq
        simp [turnOf, hr, hevents]
  · contradiction

theorem deliver_quiet (h : s.deliver relay = some t) : QuietEffect s (.deliver r) t := by
  unfold deliver at h
  split at h
  · split at h
    · obtain ⟨pump, hp, h⟩ := Option.bind_eq_some_iff.mp h
      dsimp only at h
      split at h
      · contradiction
      · split at h
        · obtain ⟨base, hbase, rfl⟩ := Option.map_eq_some_iff.mp h
          exact ⟨rfl, fun _ _ => held_same rfl rfl, quiet_base hbase (by simp), fun _ => .inl⟩
        · obtain rfl := Option.some.inj h
          exact ⟨rfl, fun _ _ hq hheld => held_push hp hq hheld rfl rfl, .inl rfl, fun _ => .inl⟩
    · contradiction
  · contradiction

theorem lock_quiet (h : s.lock d = some t) : QuietEffect s (.lock d) t := by
  unfold lock at h
  split at h
  · split at h
    · obtain rfl := Option.some.inj h
      exact ⟨rfl, fun _ _ => held_same rfl rfl, .inl rfl, nofun⟩
    · contradiction
  · contradiction

theorem closeNext_quiet (h : s.closeNext = some t) : QuietEffect s .closeNext t := by
  unfold closeNext at h
  split at h
  · rename_i hholder
    split at h
    · rename_i p hp
      obtain ⟨pump, hpump, rfl⟩ := Option.map_eq_some_iff.mp h
      unfold sendCloseTo
      split
      · rename_i hfull
        refine ⟨rfl, fun _ _ => held_same rfl rfl, .inl rfl, fun q hq => .inr ⟨rfl, ?_, ?_⟩⟩
        · rw [comesTo, hholder, ← hq]
          exact hp
        · obtain rfl := Option.some.inj hq
          exact ⟨pump, hpump, hfull⟩
      · exact ⟨rfl, fun _ _ hq hheld => held_push hpump hq hheld rfl rfl, .inl rfl, nofun⟩
    · obtain rfl := Option.some.inj h
      exact ⟨rfl, fun _ _ => held_same rfl rfl, .inl rfl, nofun⟩
  · contradiction

theorem sendClose_quiet (h : s.sendClose = some t) : QuietEffect s .sendClose t := by
  unfold sendClose at h
  split at h
  · obtain ⟨pump, hp, h⟩ := Option.bind_eq_some_iff.mp h
    split at h
    · contradiction
    · rename_i hroom
      obtain rfl := Option.some.inj h
      rw [sendCloseTo, if_neg hroom]
      exact ⟨rfl, fun _ _ hq hheld => held_push hp hq hheld rfl rfl, .inl rfl, nofun⟩
  · contradiction

theorem unlock_quiet (h : s.unlock = some t) : QuietEffect s .unlock t := by
  unfold unlock at h
  split at h
  · obtain ⟨base, hbase, rfl⟩ := Option.map_eq_some_iff.mp h
    exact ⟨rfl, fun _ _ => held_same rfl rfl, quiet_base hbase (by simp), nofun⟩
  · contradiction

theorem step_quiet (h : s.step a = some t) (ha : ∀ p act, a ≠ .pump p act) : QuietEffect s a t := by
  cases a with
  | base b => exact baseStep_quiet h
  | register i duplex => exact register_quiet h
  | frame r e =>
    obtain ⟨relay, -, h⟩ := Option.bind_eq_some_iff.mp h
    exact frame_quiet h
  | event r =>
    obtain ⟨relay, hr, h⟩ := Option.bind_eq_some_iff.mp h
    exact event_quiet hr h
  | deliver r =>
    obtain ⟨relay, -, h⟩ := Option.bind_eq_some_iff.mp h
    exact deliver_quiet h
  | dropEvents r =>
    obtain ⟨relay, -, h⟩ := Option.bind_eq_some_iff.mp h
    split at h
    · obtain rfl := Option.some.inj h
      exact ⟨rfl, fun _ _ => held_same rfl rfl, .inl rfl, fun _ => .inl⟩
    · contradiction
  | lock d => exact lock_quiet h
  | closeNext => exact closeNext_quiet h
  | sendClose => exact sendClose_quiet h
  | unlock => exact unlock_quiet h
  | pump p act => exact absurd rfl (ha p act)

/-- A step of a pump. -/
theorem step_pump {act : PumpAction} (h : s.step (.pump p act) = some t) :
    ∃ pump pump', s.pumps[p]? = some pump ∧ PumpEffect s p pump act t pump' := by
  obtain ⟨pump, hp, h⟩ := Option.bind_eq_some_iff.mp h
  obtain ⟨pump', heffect⟩ := pumpStep_effect h
  exact ⟨pump, pump', hp, heffect⟩

/-- **The channels refine the relays.** A step is one of the relays and the session manager, or none. -/
theorem step_base (h : s.step a = some t) :
    t.base = s.base ∨ ∃ b, s.base.step b = some t.base ∧ ∀ r e, b = .event r e → s.turnOf a = some r := by
  by_cases ha : ∃ p act, a = .pump p act
  · obtain ⟨p, act, rfl⟩ := ha
    obtain ⟨pump, pump', -, heffect⟩ := step_pump h
    exact heffect.base.imp_right fun ⟨b, hb, hpump⟩ => ⟨b, hb, fun r e heq => by simp [heq, ofPump] at hpump⟩
  · exact (step_quiet h fun p act heq => ha ⟨p, act, heq⟩).base

/-- Every run under the waits of this module is a run of the relays. -/
theorem run_base {as : List Action} (h : run step s as = some t) :
    ∃ bs, run Relays.State.step s.base bs = some t.base := by
  induction as generalizing s with
  | nil =>
    obtain rfl := Option.some.inj h
    exact ⟨[], rfl⟩
  | cons a as ih =>
    obtain ⟨u, hu, h⟩ := run_cons_eq_some.mp h
    obtain ⟨bs, hbs⟩ := ih h
    rcases step_base hu with hsame | ⟨b, hb, -⟩
    · exact ⟨bs, hsame ▸ hbs⟩
    · exact ⟨b :: bs, run_cons_eq_some.mpr ⟨_, hb, hbs⟩⟩

/-! ## The condition and the invariant -/

/-- The relays of a client are between two turns. -/
def Idle (base : Relays.State) (client : String) : Prop :=
  ∀ relay ∈ base.relays, relay.client = client → relay.todo = []

/-- The application is not held in a write, or the relay that takes its events is between two turns. -/
def Apart (s : State) (pump : Pump) : Prop := ¬ s.Held pump ∨ Idle s.base pump.client

/-- The application's call of `write` in a step: which pump it is of, and how many bytes. -/
def writeOf : Action → Option (Nat × Nat)
  | .pump p (.appWrite n) => some (p, n)
  | _ => none

/-- While a call awaits room for `Close` in the queue of a pump, the application is not held or the relay
    is between two turns: so it is when the call finds the queue full, the application begins no write
    that would break it, and a relay with a held application begins no turn. -/
def StaysApart (s : State) (a : Action) : Prop :=
  (a = .closeNext → ∀ p ∈ s.comesTo, ∀ pump ∈ s.pumps[p]?, pump.full = true → s.Apart pump) ∧
    (∀ w ∈ writeOf a, s.awaited = some w.1 → ∀ pump ∈ s.pumps[w.1]?,
      s.Apart { pump with socket := { pump.socket with pending := w.2 } }) ∧
    ∀ r ∈ s.turnOf a, ∀ relay ∈ s.base.relays[r]?, ∀ p ∈ s.awaited, ∀ pump ∈ s.pumps[p]?,
      pump.client = relay.client → ¬ s.Held pump

instance (s : State) (pump : Pump) : Decidable (s.Held pump) :=
  inferInstanceAs (Decidable (_ ∧ _))

instance (base : Relays.State) (client : String) : Decidable (Idle base client) :=
  inferInstanceAs (Decidable (∀ relay ∈ base.relays, relay.client = client → relay.todo = []))

instance (s : State) (pump : Pump) : Decidable (s.Apart pump) :=
  inferInstanceAs (Decidable (_ ∨ _))

instance (s : State) (a : Action) : Decidable (s.StaysApart a) :=
  inferInstanceAs (Decidable ((_ → ∀ p ∈ s.comesTo, ∀ pump ∈ s.pumps[p]?, _ → _) ∧
    (∀ w ∈ writeOf a, s.awaited = some w.1 → ∀ pump ∈ s.pumps[w.1]?, s.Apart _) ∧
    ∀ r ∈ s.turnOf a, ∀ relay ∈ s.base.relays[r]?, ∀ p ∈ s.awaited, ∀ pump ∈ s.pumps[p]?, _ → _))

/-- The waits of any call for any pump are apart. -/
def ApartInv (s : State) : Prop :=
  ∀ (p : Nat) pump, s.awaited = some p → s.pumps[p]? = some pump → s.Apart pump

theorem idle_set {base base' : Relays.State} {relay' : Relay} {client : String}
    (h : Idle base client) (hrelays : base'.relays = base.relays.set r relay')
    (hmoved : relay'.client = client → relay'.todo = []) : Idle base' client := by
  unfold Idle
  rw [hrelays]
  exact forall_mem_set h hmoved

/-- A relay between two turns stays there until it takes something up. -/
theorem idle_step {base base' : Relays.State} {b : Relays.Action} {client : String}
    (h : Idle base client) (hb : base.step b = some base')
    (hturn : ∀ r e, b = .event r e → ∀ relay ∈ base.relays[r]?, relay.client ≠ client) :
    Idle base' client := by
  cases b with
  | connect c negotiated =>
    obtain ⟨-, rfl⟩ := Relays.State.step_connect hb
    exact forall_mem_snoc h fun _ => rfl
  | mgr b =>
    obtain ⟨-, mgr, -, rfl⟩ := Relays.State.step_mgrAction hb
    exact h
  | event r e =>
    obtain ⟨relay, hr, -, ⟨-, rfl⟩ | ⟨b, mgr, -, -, rfl⟩⟩ := Relays.State.step_event hb <;>
      exact idle_set h rfl fun hclient => absurd hclient (hturn r e rfl relay hr)
  | relayStep r =>
    obtain ⟨relay, op, rest, hr, htodo, hperform⟩ := Relays.State.step_relayStep hb
    obtain ⟨-, relay', hrelays, hmoved⟩ := (Relays.State.perform_effect hperform).moved
    refine idle_set h hrelays fun hclient => ?_
    -- a relay that has something to do is not idle
    have hidle := h relay (List.mem_of_getElem? hr) (hmoved.client.symm.trans hclient)
    rw [htodo] at hidle
    contradiction
  | relayEnd r =>
    obtain ⟨relay, -, hidle, rfl⟩ := Relays.State.step_relayEnd hb
    exact idle_set h rfl fun _ => hidle
  | discharge id n =>
    obtain rfl := Option.some.inj hb
    exact h

/-- The relays stay between two turns, unless the step takes up something for one of them. -/
theorem step_idle {client : String} (h : s.step a = some t) (hidle : Idle s.base client)
    (hturn : ∀ r ∈ s.turnOf a, ∀ relay ∈ s.base.relays[r]?, relay.client ≠ client) :
    Idle t.base client := by
  rcases step_base h with hsame | ⟨b, hb, hevent⟩
  · exact hsame ▸ hidle
  · exact idle_step hidle hb fun r e heq => hturn r (hevent r e heq)

theorem apart_pump {act : PumpAction} (h : ApartInv s) (hg : s.StaysApart (.pump p act))
    (ht : s.step (.pump p act) = some t) : ApartInv t := by
  obtain ⟨pump, pump', hp, heffect⟩ := step_pump ht
  have hidle : ∀ client, Idle s.base client → Idle t.base client :=
    fun client hidle => step_idle ht hidle nofun
  intro q pump'' hq hq'
  have hawaited : s.awaited = some q := by
    rw [← hq, awaited, awaited, heffect.holder]
  have hheld : t.Held pump'' → s.Held pump'' := by
    unfold Held
    rw [heffect.sockBuf]
    exact id
  rw [heffect.pumps] at hq'
  obtain ⟨rfl, rfl⟩ | ⟨-, hq'⟩ := getElem?_of_set hq'
  · by_cases hpump : s.Held pump''
    · rcases heffect.held hpump with hold | ⟨n, rfl, rfl⟩
      · rcases h p pump hawaited hp with hno | hrelay
        · exact absurd hold hno
        · exact .inr (heffect.client ▸ hidle _ hrelay)
      · rcases hg.2.1 (p, n) rfl hawaited pump hp with hno | hrelay
        · exact absurd hpump hno
        · exact .inr (hidle _ hrelay)
    · exact .inl fun hnow => hpump (hheld hnow)
  · rcases h q pump'' hawaited hq' with hno | hrelay
    · exact .inl fun hnow => hno (hheld hnow)
    · exact .inr (hidle _ hrelay)

theorem apart_quiet (h : ApartInv s) (hg : s.StaysApart a) (hquiet : QuietEffect s a t)
    (ht : s.step a = some t) : ApartInv t := by
  intro p pump' hp hpump'
  by_cases hnow : t.Held pump'
  · obtain ⟨pump, hpump, hclient, hheld⟩ := hquiet.held p pump' hpump' hnow
    have hapart : s.Apart pump := by
      rcases hquiet.awaited p hp with hold | ⟨hact, hcomes, pump₀, hpump₀, hfull⟩
      · exact h p pump hold hpump
      · obtain rfl := Option.some.inj (hpump.symm.trans hpump₀)
        exact hg.1 hact p hcomes pump hpump hfull
    rcases hapart with hno | hidle
    · exact absurd hheld hno
    · refine .inr (hclient ▸ step_idle ht hidle fun r hr relay hrelay heq => ?_)
      -- a turn begins only at a relay with no such pump
      rcases hquiet.awaited p hp with hold | ⟨rfl, -⟩
      · exact hg.2.2 r hr relay hrelay p hold pump hpump heq.symm hheld
      · exact absurd hr nofun
  · exact .inl hnow

theorem step_apart (h : ApartInv s) (hg : s.StaysApart a) (ht : s.step a = some t) : ApartInv t := by
  by_cases ha : ∃ p act, a = .pump p act
  · obtain ⟨p, act, rfl⟩ := ha
    exact apart_pump h hg ht
  · exact apart_quiet h hg (step_quiet ht fun p act heq => ha ⟨p, act, heq⟩) ht

/-- Whoever is in the cycle is not apart. -/
theorem WaitCycle.not_apart (h : s.WaitCycle d p r pump relay) : ¬ s.Apart pump := by
  obtain ⟨op, rest, htodo, -⟩ := h.relay
  obtain ⟨hduplex, hpending, hfull⟩ := h.app
  rintro (hno | hidle)
  · exact hno ⟨hduplex, by omega⟩
  · have := hidle relay (List.mem_of_getElem? h.relay_eq) h.consumes
    rw [htodo] at this
    contradiction

/-- **No cycle of waits.** In every run in which, while `destroy_session` awaits room for `Close`, the
    application is not held in a write or its relay is between two turns, no state has a cycle of waits
    among a call, a pump with its application, and a relay. -/
theorem no_wait_cycle {high low sockBuf : Nat} {as : List Action}
    (hmeets : Meets step StaysApart (init high low sockBuf) as)
    (hrun : run step (init high low sockBuf) as = some s) :
    ¬ ∃ d p r pump relay, s.WaitCycle d p r pump relay := by
  have hinv : ApartInv s :=
    run_inv (fun s a t h hg ht => step_apart h hg ht) (by intro p pump hp; cases hp) hmeets hrun
  rintro ⟨d, p, r, pump, relay, hcycle⟩
  obtain ⟨rest, hholder⟩ := hcycle.awaits
  exact hcycle.not_apart (hinv p pump (by rw [awaited, hholder]; rfl) hcycle.pump_eq)

/-! ## Runs -/

/-- A client creates a session, and an application of the display is connected. -/
def attaching (duplex : Bool) : List Action :=
  [.base (.connect "alice" true), .frame 0 (.sessionCreate ⟨3⟩ "MIT-MAGIC-COOKIE-1" [1])] ++
    List.replicate 5 (.base (.mgr (.createStep 0 none ⟨"a"⟩))) ++
    List.replicate 3 (.base (.relayStep 0)) ++
    [.base (.mgr (.accept ⟨3⟩ ⟨1⟩)), .base (.mgr (.appStep 0)), .base (.mgr (.appStep 0)),
      .register 0 duplex, .base (.mgr (.appStep 0)), .pump 0 .announce, .event 0]

/-- A payload gets into the queue of the connection. -/
def payload (len : Nat) : List Action :=
  [.frame 0 (.streamData ⟨1⟩ len), .base (.relayStep 0), .base (.relayStep 0), .deliver 0]

/-- The client destroys its session; the call gets to the connection. -/
def destroying : List Action :=
  [.frame 0 (.sessionDestroy ⟨3⟩), .base (.relayStep 0), .base (.relayStep 0)] ++
    List.replicate 3 (.base (.mgr (.destroyStep 0))) ++ [.lock 0, .closeNext]

/-- The connection is told to close; its pump writes what came before and ends. -/
def closing : List Action :=
  attaching false ++ payload 1 ++ destroying ++
    [.unlock, .pump 0 .takeCommand, .pump 0 (.write 1), .pump 0 .finish, .pump 0 .takeCommand,
      .pump 0 .leave]

theorem no_wait_cycle_closing :
    ∃ s, run step (init 10 5 4) closing = some s ∧ s.pumps.map Pump.phase = [.ended] ∧
      ¬ ∃ d p r pump relay, s.WaitCycle d p r pump relay := by
  have hlast : ∃ s ∈ run step (init 10 5 4) closing, s.pumps.map Pump.phase = [.ended] := by
    decide +kernel
  obtain ⟨s, hs, hended⟩ := hlast
  have hmeets : Meets step StaysApart (init 10 5 4) closing := by decide +kernel
  exact ⟨s, hs, hended, no_wait_cycle hmeets hs⟩

/-- The manager with one session and one application. -/
def attachedMgr : Manager where
  sessions := ⟨[(⟨3⟩, ⟨⟨"a"⟩, ⟨3⟩, "MIT-MAGIC-COOKIE-1", [1], "alice"⟩)], by decide⟩
  ports := ⟨[(⟨3⟩, 0)], by decide⟩
  listeners := ⟨[(⟨3⟩, 0)], by decide⟩
  xauth := ⟨[(⟨3⟩, ("MIT-MAGIC-COOKIE-1", [1]))], by decide⟩
  connToRelay := ⟨[(⟨3⟩, "alice")], by decide⟩
  connections := ⟨[(⟨1⟩, ⟨3⟩)], by decide⟩
  displayConns := ⟨[(⟨3⟩, [⟨1⟩])], by decide⟩
  graceTasks := .empty
  issued := [⟨"a"⟩]
  creates := [⟨⟨3⟩, "MIT-MAGIC-COOKIE-1", [1], "alice",
    .acked ⟨⟨"a"⟩, ⟨3⟩, "MIT-MAGIC-COOKIE-1", [1], "alice"⟩⟩]
  resumes := []
  destroys := []
  graces := []
  apps := [⟨⟨1⟩, ⟨3⟩, 0, some "alice", .registered⟩]
  unregisters := []
  expired := []

/-- The application does not read and is in a write of its own; the pump has sent `events` units and has
    `units` left, and `commands` payloads of one byte wait for it. -/
def choking (units : List Nat) (events commands : Nat) : State where
  base := {
    mgr := attachedMgr
    flows := ⟨[(⟨1⟩, ⟨⟨300000 + commands, 2097152, 262144, false⟩, false⟩)], List.nodup_singleton _⟩
    relays := [⟨"alice", true, .empty, [], [], false⟩]
    high := 2097152
    low := 262144 }
  inboxes := ⟨[("alice", ⟨List.replicate events (.data ⟨1⟩ 1), false, none⟩)],
    List.nodup_singleton _⟩
  senders := ⟨[(⟨1⟩, 0)], by decide⟩
  pumps := [⟨0, ⟨1⟩, "alice", .relaying, List.replicate commands (.data 1), some (300000, 87008), units,
    ⟨false, 212992, 212992, 87008 - events - units.length⟩⟩]
  holder := none
  sockBuf := 212992

def startChoking : List Action :=
  attaching false ++ payload 300000 ++
    [.pump 0 .takeCommand, .pump 0 (.write 212992), .pump 0 (.appWrite 300000),
      .pump 0 (.appFlush 212992)]

theorem startChoking_run :
    run step (init 2097152 262144 212992) startChoking = some (choking [] 0 0) := by
  decide +kernel

/-- A unit of one byte gets to the relay, and the socket takes the next byte. -/
theorem choking_unit {n : Nat} (hn : n < channelBuffer) :
    run step (choking [] n 0) [.pump 0 (.read 1 [1]), .pump 0 .report, .pump 0 (.appFlush 1)] =
      some (choking [] (n + 1) 0) := by
  have hroom : ¬ channelBuffer ≤ n := by omega
  have hpending : 1 ≤ 87008 - n := by
    unfold channelBuffer at hn
    omega
  simp [run, step, choking, pumpStep, setPump, eventsFull, pushEvent, setInbox, inbox,
    Table.get_single, Table.put_single, Relays.State.gated, Relays.State.flowOf, hroom, hpending,
    List.replicate_succ']
  omega

/-- A payload of one byte gets into the queue. -/
theorem choking_payload {n : Nat} (hn : n < channelBuffer) :
    run step (choking [1] channelBuffer n) (payload 1) = some (choking [1] channelBuffer (n + 1)) := by
  have hlow : ¬ 2097152 ≤ 300000 + (n + 1) := by
    unfold channelBuffer at hn
    omega
  have howns : attachedMgr.ownsConnection ⟨1⟩ "alice" = true := by decide
  simp [run, payload, step, frame, choking, setInbox, inbox, Table.get_single, Table.put_single, ready,
    fromPump, baseStep, mayTake, locks, inboxesAfter, howns, Relays.State.step, Relays.State.take,
    Relays.State.turn, Relays.State.perform, Relays.State.callOf, Relays.State.setRelay,
    Relays.State.setMeter, Relays.State.flowOf, Flow.FlowMeter.charge, Flow.FlowMeter.add, hlow,
    sendersAfter, deliver, Pump.full, Pump.closed, Pump.push, setPump, hn, List.replicate_succ',
    Nat.add_assoc]

/-- The call holds the lock and awaits room; the relay awaits the call. -/
def halted : State :=
  { choking [1] channelBuffer channelBuffer with
    base := { (choking [1] channelBuffer channelBuffer).base with
      mgr := { attachedMgr with
        ports := .empty
        listeners := .empty
        connToRelay := .empty
        displayConns := .empty
        destroys := [⟨⟨3⟩, none, .closing [⟨1⟩]⟩] }
      relays := [⟨"alice", true, .empty, [], [.awaitDestroy 0], false⟩] }
    senders := .empty
    holder := some ⟨0, [], some 0⟩ }

theorem choking_destroying :
    run step (choking [1] channelBuffer channelBuffer) destroying = some halted := by
  have hfull : (Pump.mk 0 ⟨1⟩ "alice" .relaying (List.replicate channelBuffer (.data 1))
      (some (300000, 87008)) [1] ⟨false, 212992, 212992, 87008 - channelBuffer - 1⟩).full = true := by
    simp [Pump.full, Pump.closed]
  have hlocked : run step (choking [1] channelBuffer channelBuffer) (destroying.take 7) =
      some { halted with
        senders := (choking [1] channelBuffer channelBuffer).senders
        holder := some ⟨0, [⟨1⟩], none⟩ } := rfl
  rw [show destroying = destroying.take 7 ++ [.closeNext] from rfl]
  refine run_append.mpr ⟨_, hlocked, ?_⟩
  show some (sendCloseTo _ _ _ _ _) = _
  rw [sendCloseTo]
  erw [if_pos hfull]
  rfl

theorem halted_waits : ∃ pump relay, halted.WaitCycle 0 0 0 pump relay := by
  refine ⟨_, _, ⟨[], rfl⟩, rfl, ?_, ⟨rfl, 300000, 87008, rfl, by decide, le_refl _⟩,
    ⟨rfl, by decide, le_refl _⟩, .inl ⟨by simp, ?_⟩, rfl, rfl, .awaitDestroy 0, [], rfl, _, [⟨1⟩], rfl, rfl⟩
  · simp [Pump.full, Pump.closed]
  · simp [eventsFull, inbox, halted, choking, Table.get_single]

/-- Both queues fill, and the client destroys its session. -/
def standstill : List Action :=
  startChoking ++
    ((List.replicate channelBuffer
        [.pump 0 (.read 1 [1]), .pump 0 .report, .pump 0 (.appFlush 1)]).flatten ++
      ([.pump 0 (.read 1 [1]), .pump 0 (.appFlush 1)] ++
        ((List.replicate channelBuffer (payload 1)).flatten ++ destroying)))

theorem standstill_run : run step (init 2097152 262144 212992) standstill = some halted := by
  have hunits := (run_replicate (m := 0) (k := channelBuffer)
    (f := fun n => choking [] n 0) (G := fun _ _ => True)
    fun i _ hi => ⟨choking_unit (by omega), meets_true _ _ _⟩).1
  have hpayloads := (run_replicate (m := 0) (k := channelBuffer)
    (f := fun n => choking [1] channelBuffer n) (G := fun _ _ => True)
    fun i _ hi => ⟨choking_payload (by omega), meets_true _ _ _⟩).1
  rw [Nat.zero_add] at hunits hpayloads
  have hlast : run step (choking [] channelBuffer 0) [.pump 0 (.read 1 [1]), .pump 0 (.appFlush 1)] =
      some (choking [1] channelBuffer 0) := rfl
  exact run_append.mpr ⟨_, startChoking_run, run_append.mpr ⟨_, hunits,
    run_append.mpr ⟨_, hlast, run_append.mpr ⟨_, hpayloads, choking_destroying⟩⟩⟩⟩

/-- The lock order does not exclude the cycle. -/
theorem wait_cycle_reached :
    ¬ ∀ (high low sockBuf : Nat) (as : List Action) (s : State),
      run step (init high low sockBuf) as = some s →
        ¬ ∃ d p r pump relay, s.WaitCycle d p r pump relay := by
  intro h
  obtain ⟨pump, relay, hcycle⟩ := halted_waits
  exact h _ _ _ _ _ standstill_run ⟨0, 0, 0, pump, relay, hcycle⟩

end State

end RemoteX11.Server.Waits
