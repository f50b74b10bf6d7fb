/-
  Is the egress gate of a channel what the relay wants it to be?

  The gate of a channel is a derived value: closed exactly when the client has paused the channel and the
  relay does not hold it paused itself (`egress_desired`). Every operation that changes one of the two
  inputs derives the gate again, except the ack of a session: it opens the gates of the display and leaves
  the relay's `peer_paused` as it is, so a client that pauses a channel and then resumes its session on the
  same transport has the channel paused and its gate open (`repeated_ack_opens_gate`). A relay also derives
  gates of channels that another client owns by now.

  `gates_follow_flow_state`: every relay between two turns finds the gates of its client's channels as it
  wants them, as long as relays set the gates of their own client's channels only and an ack finds none
  that the relay wants closed (`GatesOwn`).
-/
import RemoteX11.Server.Relays
import RemoteX11.Sessions.Calls
import RemoteX11.Sessions.Grace

namespace RemoteX11.Server.Relays

open RemoteX11.Lib RemoteX11.Protocol RemoteX11.Flow RemoteX11.Sessions

/-- The operation belongs to an ack that has yet to reset the gates of the display. -/
def RelayOp.acking (mgr : Manager) (disp : DisplayNumber) : RelayOp → Prop
  | .awaitCreate k => ∃ call ∈ mgr.creates[k]?, ∃ session ∈ call.phase.session, session.display = disp
  | .awaitResume k => ∃ call ∈ mgr.resumes[k]?, ∃ session ∈ call.phase.session, session.display = disp
  | .readConns d => d = disp
  | .resetFlow d _ => d = disp
  | _ => False

namespace State

/-- The connection, if registered, is on a display without a session or with a session of the relay's
    client. -/
def NotOthers (s : State) (relay : Relay) (id : ConnectionId) : Prop :=
  ∀ disp ∈ s.mgr.connections.get id, ∀ session ∈ s.mgr.sessions.get disp,
    session.clientId = relay.client

/-- The relay derives the gate of a connection that is not another client's, or changes nothing. -/
def MaySync (s : State) (relay : Relay) (id : ConnectionId) : Prop :=
  s.NotOthers relay id ∨ s.gated id = relay.desired id

/-- The next operation of a relay sets gates of its own client's connections only; and the reset of an
    ack opens no gate that the relay wants closed, and passes over none that the relay wants otherwise. -/
def SetsOwn (s : State) (relay : Relay) : RelayOp → Prop
  | .setPeerPause id paused => s.MaySync (relay.notePeer id paused) id
  | .advertiseEdge edge => relay.negotiated = true → s.MaySync (relay.record edge) edge.connectionId
  | .syncEgress id => s.MaySync relay id
  | .resetFlow disp ids =>
    (∀ id ∈ ids, s.registered id = true → s.NotOthers relay id ∧ relay.desired id = false) ∧
      ∀ e ∈ s.mgr.connections.entries, e.2 = disp → e.1 ∉ ids → s.gated e.1 = relay.desired e.1
  | _ => True

instance (s : State) (relay : Relay) (id : ConnectionId) : Decidable (s.NotOthers relay id) :=
  inferInstanceAs (Decidable (∀ disp ∈ s.mgr.connections.get id, ∀ session ∈ s.mgr.sessions.get disp, _))

instance (s : State) (relay : Relay) (id : ConnectionId) : Decidable (s.MaySync relay id) :=
  inferInstanceAs (Decidable (_ ∨ _))

instance (s : State) (relay : Relay) : (op : RelayOp) → Decidable (s.SetsOwn relay op)
  | .setPeerPause id paused => inferInstanceAs (Decidable (s.MaySync (relay.notePeer id paused) id))
  | .advertiseEdge edge =>
    inferInstanceAs (Decidable (relay.negotiated = true → s.MaySync (relay.record edge) _))
  | .syncEgress id => inferInstanceAs (Decidable (s.MaySync relay id))
  | .resetFlow _ ids =>
    inferInstanceAs (Decidable ((∀ id ∈ ids, s.registered id = true → _) ∧ ∀ e ∈ _, _ → _ → _))
  | .flowControl .. | .route .. | .charge .. | .reconcile _ | .due | .awaitCreate _ | .awaitResume _
  | .readConns _ | .awaitUnregister .. | .sessionDestroy _ | .callDestroy _ | .awaitDestroy _ =>
    isTrue trivial

/-- Connection ids are drawn once, and gates are set as `SetsOwn` says. -/
def GatesOwn (s : State) : Action → Prop
  | .mgr a => Manager.FreshId s.mgr a
  | .relayStep r => ∀ relay ∈ s.relays[r]?, ∀ op ∈ relay.todo.head?, s.SetsOwn relay op
  | _ => True

instance (s : State) : (a : Action) → Decidable (GatesOwn s a)
  | .mgr a => inferInstanceAs (Decidable (Manager.FreshId s.mgr a))
  | .relayStep r =>
    inferInstanceAs (Decidable (∀ relay ∈ s.relays[r]?, ∀ op ∈ relay.todo.head?, s.SetsOwn relay op))
  | .connect .. | .event .. | .relayEnd _ | .discharge .. => isTrue trivial

/-- Every relay with negotiated flow control that is between two turns: the gate of each connection that
    its client owns is what the relay wants it to be. -/
def GatesDerived (s : State) : Prop :=
  ∀ (i : Nat) relay, s.relays[i]? = some relay → relay.negotiated = true → relay.ended = false →
    relay.todo = [] → ∀ id, s.mgr.ownsConnection id relay.client = true →
      s.gated id = egressDesired (relay.peerPaused.contains id) (relay.advertiser.isPaused id)

variable {s t : State} {a : Action} {i : Nat} {relay : Relay} {op : RelayOp} {rest : List RelayOp}

/-! ## What an operation does to the manager and to the relay's list -/

/-- The operations that an operation puts in front of the others. -/
def Spawns (s : State) (relay : Relay) (op o : RelayOp) : Prop :=
  match op with
  | .flowControl .. =>
    ∃ id paused, o = .setPeerPause id paused ∧ s.mgr.ownsConnection id relay.client = true
  | .route .. => ∃ id len, o = .charge id len
  | .charge .. | .reconcile .. => ∃ edge, o = .advertiseEdge edge
  | .due => ∃ id, o = .syncEgress id
  | .awaitCreate .. | .awaitResume .. => ∃ disp, o = .readConns disp
  | .readConns .. => ∃ disp ids, o = .resetFlow disp ids
  | .sessionDestroy .. => ∃ disp, o = .callDestroy disp
  | .callDestroy .. => ∃ k, o = .awaitDestroy k
  | _ => False

/-- The operation is replaced by others: what comes after it stays, and so does an ack. -/
structure Replaced (s : State) (relay : Relay) (op : RelayOp) (rest todo : List RelayOp) : Prop where
  keeps : ∀ o ∈ rest, o ∈ todo
  spawns : ∀ o ∈ todo, o ∈ rest ∨ s.Spawns relay op o
  acking : ∀ disp, op.acking s.mgr disp → ∃ o ∈ todo, o.acking s.mgr disp

/-- What an operation can do, as far as gates and calls are concerned. -/
inductive Effect (s : State) (i : Nat) (relay : Relay) (op : RelayOp) (rest : List RelayOp) :
    State → Prop
  /-- it changes no gate and nothing that a gate is derived from -/
  | pass {flows : Table ConnectionId ConnFlow} {advertiser : Advertiser} {todo : List RelayOp}
      (hflows : ∀ id, { s with flows := flows }.gated id = s.gated id)
      (hpaused : ∀ id, advertiser.isPaused id = relay.advertiser.isPaused id)
      (htodo : Replaced s relay op rest todo) :
    Effect s i relay op rest
      ({ s with flows := flows }.setRelay i { relay with advertiser := advertiser } todo)
  /-- it derives a gate, perhaps after a change of what the relay knows of this channel -/
  | sync {id : ConnectionId} {advertiser : Advertiser} {peerPaused : List ConnectionId}
      (hmay : s.SetsOwn relay op →
        s.MaySync { relay with advertiser := advertiser, peerPaused := peerPaused } id)
      (hother : ∀ id' ≠ id,
        { relay with advertiser := advertiser, peerPaused := peerPaused }.desired id' =
          relay.desired id')
      (hpeer : ∀ id' ∈ peerPaused, id' ∈ relay.peerPaused ∨ op = .setPeerPause id' true)
      (hacking : ∀ disp, ¬ op.acking s.mgr disp) :
    Effect s i relay op rest
      ((s.syncEgress { relay with advertiser := advertiser, peerPaused := peerPaused } id).setRelay i
        { relay with advertiser := advertiser, peerPaused := peerPaused } rest)
  | reset {disp : DisplayNumber} {ids : List ConnectionId} (hop : op = .resetFlow disp ids) :
    Effect s i relay op rest ((s.resetFlow ids).setRelay i relay rest)
  | forget {k : Nat} {id : ConnectionId} {call : UnregisterCall} (hop : op = .awaitUnregister k id)
      (hk : s.mgr.unregisters[k]? = some call) (hdone : call.phase = .done) :
    Effect s i relay op rest (s.setRelay i (relay.forget id) rest)
  | manager {mgr : Manager} {todo : List RelayOp} {b : Sessions.Action}
      (hb : (∃ disp, b = .unregisterRelay disp) ∨ ∃ disp, b = .destroy disp)
      (hstep : s.mgr.step b = some mgr) (htodo : Replaced s relay op rest todo) :
    Effect s i relay op rest ({ s with mgr := mgr }.setRelay i relay todo)

theorem Replaced.cons {o : RelayOp} (hspawns : s.Spawns relay op o)
    (hacking : ∀ disp, op.acking s.mgr disp → o.acking s.mgr disp) :
    Replaced s relay op rest (o :: rest) where
  keeps _ ho := List.mem_cons_of_mem _ ho
  spawns o' ho := by
    rcases List.mem_cons.mp ho with rfl | hrest
    · exact .inr hspawns
    · exact .inl hrest
  acking disp h := ⟨o, List.mem_cons_self, hacking disp h⟩

theorem Replaced.done (hacking : ∀ disp, ¬ op.acking s.mgr disp) : Replaced s relay op rest rest where
  keeps _ ho := ho
  spawns _ ho := .inl ho
  acking disp h := absurd h (hacking disp)

theorem Replaced.append {os : List RelayOp} (hspawns : ∀ o ∈ os, s.Spawns relay op o)
    (hacking : ∀ disp, ¬ op.acking s.mgr disp) : Replaced s relay op rest (os ++ rest) where
  keeps _ ho := List.mem_append_right _ ho
  spawns o ho := (List.mem_append.mp ho).symm.imp_right (hspawns o)
  acking disp h := absurd h (hacking disp)

/-- Only the list of the relay changes. -/
theorem Effect.list {todo : List RelayOp} (htodo : Replaced s relay op rest todo) :
    Effect s i relay op rest (s.setRelay i relay todo) :=
  .pass (fun _ => rfl) (fun _ => rfl) htodo

theorem contains_notePeer {id id' : ConnectionId} {paused : Bool} (h : id' ≠ id) :
    (relay.notePeer id paused).peerPaused.contains id' = relay.peerPaused.contains id' := by
  rw [Bool.eq_iff_iff]
  cases paused <;> simp [Relay.notePeer, h]

theorem gated_setMeter (s : State) (id id' : ConnectionId) (meter : FlowMeter) :
    (s.setMeter id meter).gated id' = s.gated id' := by
  unfold gated flowOf setMeter
  dsimp only
  rw [Table.get_put]
  split
  · rename_i hid
    rw [hid]
    rfl
  · rfl

theorem gated_setGate (s : State) (id id' : ConnectionId) (gate : Bool) :
    (s.setGate id gate).gated id' = if id' = id then gate else s.gated id' := by
  unfold gated flowOf setGate
  dsimp only
  rw [Table.get_put]
  split <;> rfl

theorem syncEgress_frame (s : State) (relay : Relay) (id : ConnectionId) :
    s.syncEgress relay id = { s with flows := (s.syncEgress relay id).flows } := by
  unfold syncEgress
  split <;> rfl

@[simp] theorem syncEgress_mgr (s : State) (relay : Relay) (id : ConnectionId) :
    (s.syncEgress relay id).mgr = s.mgr := by
  rw [syncEgress_frame]

@[simp] theorem syncEgress_relays (s : State) (relay : Relay) (id : ConnectionId) :
    (s.syncEgress relay id).relays = s.relays := by
  rw [syncEgress_frame]

@[simp] theorem setRelay_mgr (s : State) (i : Nat) (relay : Relay) (todo : List RelayOp) :
    (s.setRelay i relay todo).mgr = s.mgr := rfl

@[simp] theorem setRelay_relays (s : State) (i : Nat) (relay : Relay) (todo : List RelayOp) :
    (s.setRelay i relay todo).relays = s.relays.set i { relay with todo := todo } := rfl

@[simp] theorem gated_setRelay (s : State) (i : Nat) (relay : Relay) (todo : List RelayOp)
    (id : ConnectionId) : (s.setRelay i relay todo).gated id = s.gated id := rfl

theorem gated_syncEgress (s : State) (relay : Relay) (id id' : ConnectionId) :
    (s.syncEgress relay id).gated id' =
      if id' = id ∧ s.registered id = true then relay.desired id else s.gated id' := by
  unfold syncEgress
  split
  · rename_i hreg
    rw [gated_setGate]
    simp [hreg]
  · rename_i hreg
    simp [hreg]

theorem resetFlow_frame (s : State) (ids : List ConnectionId) :
    s.resetFlow ids = { s with flows := (s.resetFlow ids).flows } := by
  unfold resetFlow
  induction ids generalizing s with
  | nil => rfl
  | cons id ids ih =>
    have hone : s.resetConn id = { s with flows := (s.resetConn id).flows } := by
      unfold resetConn
      split <;> rfl
    rw [List.foldl_cons, hone]
    exact ih _

@[simp] theorem resetFlow_mgr (s : State) (ids : List ConnectionId) :
    (s.resetFlow ids).mgr = s.mgr := by
  rw [resetFlow_frame]

@[simp] theorem resetFlow_relays (s : State) (ids : List ConnectionId) :
    (s.resetFlow ids).relays = s.relays := by
  rw [resetFlow_frame]

theorem gated_resetFlow (s : State) (ids : List ConnectionId) (id : ConnectionId) :
    (s.resetFlow ids).gated id = if id ∈ ids ∧ s.registered id = true then false else s.gated id := by
  unfold resetFlow
  induction ids generalizing s with
  | nil => simp
  | cons id' ids ih =>
    have hreg : (s.resetConn id').registered id = s.registered id := by
      unfold resetConn
      split <;> rfl
    have hgated : (s.resetConn id').gated id =
        if id = id' ∧ s.registered id' = true then false else s.gated id := by
      unfold resetConn
      split
      · unfold gated flowOf
        dsimp only
        rw [Table.get_put]
        split <;> simp_all
      · simp_all
    rw [List.foldl_cons, ih, hreg, hgated]
    by_cases hid : id = id' <;> by_cases hmem : id ∈ ids <;> by_cases hr : s.registered id = true <;>
      simp_all

theorem perform_effect (h : s.perform i relay op rest = some t) : Effect s i relay op rest t := by
  cases op with
  | flowControl scope action =>
    cases scope with
    | some id =>
      simp only [perform] at h
      split at h
      · rename_i howns
        obtain rfl := Option.some.inj h
        exact .list (.cons ⟨id, _, rfl, howns⟩ fun _ => False.elim)
      · obtain rfl := Option.some.inj h
        exact .list (.done fun _ h => h)
    | none =>
      obtain rfl := Option.some.inj h
      refine .list (.append (fun o ho => ?_) fun _ h => h)
      obtain ⟨id, hid, rfl⟩ := List.mem_map.mp ho
      exact ⟨id, _, rfl, (List.mem_filter.mp hid).2⟩
  | setPeerPause id paused =>
    obtain rfl := Option.some.inj h
    refine .sync (fun hown => hown) (fun id' hne => ?_) (fun id' hid => ?_) fun _ h => h
    · exact congrArg (fun b => egressDesired b _) (contains_notePeer hne)
    · cases paused with
      | true =>
        rcases List.mem_insert_iff.mp hid with rfl | hold
        · exact .inr rfl
        · exact .inl hold
      | false => exact .inl (List.mem_filter.mp hid).1
  | route id len =>
    simp only [perform] at h
    split at h
    · obtain rfl := Option.some.inj h
      exact .list (.cons ⟨id, len, rfl⟩ fun _ => False.elim)
    · obtain rfl := Option.some.inj h
      exact .list (.done fun _ h => h)
  | charge id len =>
    obtain rfl := Option.some.inj h
    refine .pass (fun id' => gated_setMeter s id id' _) (fun _ => rfl) ?_
    split
    · exact .cons ⟨_, rfl⟩ fun _ => False.elim
    · exact .done fun _ h => h
  | advertiseEdge edge =>
    simp only [perform] at h
    split at h
    · rename_i hneg
      obtain rfl := Option.some.inj h
      refine .sync (fun hown => hown hneg) (fun id' hne => ?_) (fun _ h => .inl h) fun _ h => h
      exact congrArg (egressDesired _)
        (relay.advertiser.isPaused_record_of_ne edge id' (Ne.symm hne))
    · obtain rfl := Option.some.inj h
      exact .list (.done fun _ h => h)
  | reconcile id =>
    obtain rfl := Option.some.inj h
    refine .list ?_
    split
    · exact .done fun _ h => h
    · exact .cons ⟨_, rfl⟩ fun _ => False.elim
  | due =>
    obtain rfl := Option.some.inj h
    refine .pass (fun _ => rfl) (fun _ => rfl) (.append (fun o ho => ?_) fun _ h => h)
    obtain ⟨edge, -, rfl⟩ := List.mem_map.mp ho
    exact ⟨_, rfl⟩
  | syncEgress id =>
    obtain rfl := Option.some.inj h
    exact .sync (fun hown => hown) (fun _ _ => rfl) (fun _ h => .inl h) fun _ h => h
  | awaitCreate k =>
    simp only [perform] at h
    split at h
    · rename_i hk
      obtain rfl := Option.some.inj h
      refine .list (.cons ⟨_, rfl⟩ fun disp hacking => ?_)
      obtain ⟨call, hcall, session, hsession, hdisp⟩ := hacking
      obtain rfl := Option.some.inj (hk.symm.trans hcall)
      obtain rfl := Option.some.inj hsession
      exact hdisp
    · rename_i hk
      obtain rfl := Option.some.inj h
      refine .list (.done fun disp hacking => ?_)
      obtain ⟨call, hcall, session, hsession, -⟩ := hacking
      obtain rfl := Option.some.inj (hk.symm.trans hcall)
      contradiction
    · contradiction
  | awaitResume k =>
    simp only [perform] at h
    split at h
    · rename_i hk
      obtain rfl := Option.some.inj h
      refine .list (.cons ⟨_, rfl⟩ fun disp hacking => ?_)
      obtain ⟨call, hcall, session, hsession, hdisp⟩ := hacking
      obtain rfl := Option.some.inj (hk.symm.trans hcall)
      obtain rfl := Option.some.inj hsession
      exact hdisp
    · rename_i hk
      obtain rfl := Option.some.inj h
      refine .list (.done fun disp hacking => ?_)
      obtain ⟨call, hcall, session, hsession, -⟩ := hacking
      obtain rfl := Option.some.inj (hk.symm.trans hcall)
      contradiction
    · contradiction
  | readConns disp =>
    obtain rfl := Option.some.inj h
    exact .list (.cons ⟨disp, _, rfl⟩ fun _ h => h)
  | resetFlow disp ids =>
    obtain rfl := Option.some.inj h
    exact .reset rfl
  | awaitUnregister k id =>
    simp only [perform] at h
    split at h
    · rename_i hk
      obtain rfl := Option.some.inj h
      exact .forget rfl hk rfl
    · contradiction
  | sessionDestroy disp =>
    simp only [perform] at h
    split at h
    · obtain rfl := Option.some.inj h
      exact .manager (.inl ⟨disp, rfl⟩) rfl (.cons ⟨disp, rfl⟩ fun _ => False.elim)
    · obtain rfl := Option.some.inj h
      exact .list (.done fun _ h => h)
  | callDestroy disp =>
    obtain rfl := Option.some.inj h
    exact .manager (.inr ⟨disp, rfl⟩) rfl (.cons ⟨_, rfl⟩ fun _ => False.elim)
  | awaitDestroy k =>
    simp only [perform] at h
    split at h
    · obtain rfl := Option.some.inj h
      exact .list (.done fun _ h => h)
    · contradiction

/-- What becomes of a relay that does its first operation. -/
structure Moved (s : State) (relay : Relay) (op : RelayOp) (rest : List RelayOp) (relay' : Relay) :
    Prop where
  client : relay'.client = relay.client
  keeps : ∀ o ∈ rest, o ∈ relay'.todo
  spawns : ∀ o ∈ relay'.todo, o ∈ rest ∨ s.Spawns relay op o
  paused : ∀ id ∈ relay'.peerPaused, id ∈ relay.peerPaused ∨ op = .setPeerPause id true

/-- The registry and the calls that change owners are left alone. -/
structure SameCalls (s t : State) : Prop where
  sessions : t.mgr.sessions = s.mgr.sessions
  connections : t.mgr.connections = s.mgr.connections
  creates : t.mgr.creates = s.mgr.creates
  resumes : t.mgr.resumes = s.mgr.resumes

theorem Effect.moved (h : Effect s i relay op rest t) : SameCalls s t ∧
    ∃ relay', t.relays = s.relays.set i relay' ∧ Moved s relay op rest relay' := by
  cases h with
  | pass hflows hpaused htodo =>
    exact ⟨⟨rfl, rfl, rfl, rfl⟩, _, rfl, rfl, htodo.keeps, htodo.spawns, fun _ h => .inl h⟩
  | sync hmay hother hpeer hacking =>
    rw [syncEgress_frame]
    exact ⟨⟨rfl, rfl, rfl, rfl⟩, _, rfl, rfl, fun _ h => h, fun _ h => .inl h, hpeer⟩
  | reset hop =>
    rw [resetFlow_frame]
    exact ⟨⟨rfl, rfl, rfl, rfl⟩, _, rfl, rfl, fun _ h => h, fun _ h => .inl h, fun _ h => .inl h⟩
  | forget hop hk hdone =>
    refine ⟨⟨rfl, rfl, rfl, rfl⟩, _, rfl, rfl, fun _ h => h, fun _ h => .inl h, fun id h => ?_⟩
    exact .inl (List.mem_filter.mp h).1
  | manager hb hstep htodo =>
    rcases hb with ⟨disp, rfl⟩ | ⟨disp, rfl⟩ <;> obtain rfl := Option.some.inj hstep <;>
      exact ⟨⟨rfl, rfl, rfl, rfl⟩, _, rfl, rfl, htodo.keeps, htodo.spawns, fun _ h => .inl h⟩

theorem perform_awaitCreate {k : Nat} (h : s.perform i relay (.awaitCreate k) rest = some t)
    {call : CreateCall} (hk : s.mgr.creates[k]? = some call) : call.phase.pending = false := by
  simp only [perform] at h
  split at h
  · rename_i hk'
    obtain rfl := Option.some.inj (hk.symm.trans hk')
    rfl
  · rename_i hk'
    obtain rfl := Option.some.inj (hk.symm.trans hk')
    rfl
  · contradiction

theorem perform_awaitResume {k : Nat} (h : s.perform i relay (.awaitResume k) rest = some t)
    {call : ResumeCall} (hk : s.mgr.resumes[k]? = some call) : call.phase.pending = false := by
  simp only [perform] at h
  split at h
  · rename_i hk'
    obtain rfl := Option.some.inj (hk.symm.trans hk')
    rfl
  · rename_i hk'
    obtain rfl := Option.some.inj (hk.symm.trans hk')
    rfl
  · contradiction

theorem step_relayStep (ht : s.step (.relayStep i) = some t) : ∃ relay op rest,
    s.relays[i]? = some relay ∧ relay.todo = op :: rest ∧ s.perform i relay op rest = some t := by
  obtain ⟨relay, hi, ht⟩ := Option.bind_eq_some_iff.mp ht
  split at ht
  · rename_i op rest htodo
    exact ⟨relay, op, rest, hi, htodo, ht⟩
  · contradiction

theorem step_event {e : RelayEvent} (ht : s.step (.event i e) = some t) : ∃ relay,
    s.relays[i]? = some relay ∧ relay.todo = [] ∧
      ((callOf relay.client e = none ∧ t = s.setRelay i relay (s.turn relay e)) ∨
        ∃ b mgr, callOf relay.client e = some b ∧ s.mgr.step b = some mgr ∧
          t = { s with mgr := mgr }.setRelay i relay (s.turn relay e)) := by
  obtain ⟨relay, hi, ht⟩ := Option.bind_eq_some_iff.mp ht
  unfold take at ht
  split at ht
  · rename_i hidle
    refine ⟨relay, hi, hidle.1, ?_⟩
    split at ht
    · rename_i b hb
      obtain ⟨mgr, hstep, rfl⟩ := Option.map_eq_some_iff.mp ht
      exact .inr ⟨b, mgr, hb, hstep, rfl⟩
    · rename_i hnone
      exact .inl ⟨hnone, (Option.some.inj ht).symm⟩
  · contradiction

theorem step_mgrAction {b : Sessions.Action} (ht : s.step (.mgr b) = some t) :
    madeByRelay b = false ∧ ∃ mgr, s.mgr.step b = some mgr ∧
      t = { s with mgr := mgr, flows := s.flowsAfter b } := by
  simp only [step] at ht
  split at ht
  · contradiction
  · rename_i hmade
    obtain ⟨mgr, hstep, rfl⟩ := Option.map_eq_some_iff.mp ht
    exact ⟨Bool.eq_false_iff.mpr hmade, mgr, hstep, rfl⟩

theorem step_connect {client : String} {negotiated : Bool}
    (ht : s.step (.connect client negotiated) = some t) : client ∉ s.relays.map Relay.client ∧
      t = { s with relays := s.relays ++ [⟨client, negotiated, .empty, [], [], false⟩] } := by
  simp only [step] at ht
  split at ht
  · contradiction
  · exact ⟨‹_›, (Option.some.inj ht).symm⟩

theorem step_relayEnd (ht : s.step (.relayEnd i) = some t) : ∃ relay, s.relays[i]? = some relay ∧
    relay.todo = [] ∧ t = { s with relays := s.relays.set i { relay with ended := true } } := by
  obtain ⟨relay, hi, ht⟩ := Option.bind_eq_some_iff.mp ht
  split at ht
  · rename_i hidle
    exact ⟨relay, hi, hidle.1, (Option.some.inj ht).symm⟩
  · contradiction

/-- What a relay does to the session manager by itself: it makes a call, whose sections come later, or
    unregisters a display. -/
def begins : Sessions.Action → Bool
  | .create .. | .createAuto .. | .resume .. | .destroy _ | .unregister _ | .unregisterRelay _ => true
  | _ => false

/-- The manager makes at most one step, of its own or as a relay calls it. -/
theorem step_mgr (ht : s.step a = some t) : t.mgr = s.mgr ∨
    ∃ b, s.mgr.step b = some t.mgr ∧ (a = .mgr b ∨ begins b = true) := by
  cases a with
  | connect client negotiated =>
    obtain ⟨-, rfl⟩ := step_connect ht
    exact .inl rfl
  | mgr b =>
    obtain ⟨-, mgr, hstep, rfl⟩ := step_mgrAction ht
    exact .inr ⟨b, hstep, .inl rfl⟩
  | event r e =>
    obtain ⟨relay, -, -, ⟨-, rfl⟩ | ⟨b, mgr, hb, hstep, rfl⟩⟩ := step_event ht
    · exact .inl rfl
    · refine .inr ⟨b, hstep, .inr ?_⟩
      cases e <;> first | contradiction | (obtain rfl := Option.some.inj hb; rfl)
  | relayStep r =>
    obtain ⟨relay, op, rest, -, -, hperform⟩ := step_relayStep ht
    cases perform_effect hperform with
    | manager hb hstep =>
      refine .inr ⟨_, hstep, .inr ?_⟩
      rcases hb with ⟨disp, rfl⟩ | ⟨disp, rfl⟩ <;> rfl
    | pass | forget => exact .inl rfl
    | sync => exact .inl (by rw [syncEgress_frame]; rfl)
    | reset => exact .inl (by rw [resetFlow_frame]; rfl)
  | relayEnd r =>
    obtain ⟨relay, -, -, rfl⟩ := step_relayEnd ht
    exact .inl rfl
  | discharge id n =>
    obtain rfl := Option.some.inj ht
    exact .inl rfl

/-- A relay draws no connection id. -/
theorem freshId_of_begins {m : Manager} {b : Sessions.Action} (h : begins b = true) :
    Manager.FreshId m b := by
  cases b <;> trivial

/-! ## The manager's part -/

structure MgrInv (s : State) : Prop where
  reg : Manager.RegistryInv s.mgr
  gone : Manager.UnregisteredGone s.mgr

theorem step_mgrInv (h : MgrInv s) (hg : GatesOwn s a) (ht : s.step a = some t) : MgrInv t := by
  rcases step_mgr ht with hsame | ⟨b, hstep, hb⟩
  · exact ⟨hsame ▸ h.reg, hsame ▸ h.gone⟩
  · have hfresh : Manager.FreshId s.mgr b := by
      rcases hb with rfl | hb
      · exact hg
      · exact freshId_of_begins hb
    exact ⟨Manager.step_registryInv h.reg hfresh hstep,
      Manager.step_unregisteredGone h.gone h.reg hstep⟩

/-! ## Which relay makes which call -/

/-- Every relay has an id of its own, and every call and session is some relay's; a call that is not
    acked yet is awaited by its relay. -/
structure CallsInv (s : State) : Prop where
  clients : (s.relays.map Relay.client).Nodup
  owners : ∀ disp session, s.mgr.sessions.get disp = some session →
    session.clientId ∈ s.relays.map Relay.client
  creators : ∀ (k : Nat) call, s.mgr.creates[k]? = some call →
    call.clientId ∈ s.relays.map Relay.client
  creates : ∀ (k : Nat) call, s.mgr.creates[k]? = some call → call.phase.pending = true →
    ∃ relay ∈ s.relays, relay.client = call.clientId ∧ .awaitCreate k ∈ relay.todo
  resumers : ∀ (k : Nat) call, s.mgr.resumes[k]? = some call →
    call.clientId ∈ s.relays.map Relay.client
  resumes : ∀ (k : Nat) call, s.mgr.resumes[k]? = some call → call.phase.pending = true →
    ∃ relay ∈ s.relays, relay.client = call.clientId ∧ .awaitResume k ∈ relay.todo

theorem clients_set {relay' : Relay} (hi : s.relays[i]? = some relay)
    (hclient : relay'.client = relay.client) :
    (s.relays.set i relay').map Relay.client = s.relays.map Relay.client := by
  obtain ⟨hlt, rfl⟩ := List.getElem?_eq_some_iff.mp hi
  rw [List.map_set, hclient, ← List.getElem_map Relay.client (h := by simpa using hlt),
    List.set_getElem_self]

/-- The relay that awaits a call goes on awaiting it, unless it is the one that moves. -/
theorem awaits_set {relay' : Relay} {P : Relay → Prop} (hi : s.relays[i]? = some relay)
    (h : ∃ r ∈ s.relays, P r) (hP : P relay → P relay') : ∃ r ∈ s.relays.set i relay', P r := by
  obtain ⟨hlt, -⟩ := List.getElem?_eq_some_iff.mp hi
  rcases exists_mem_set relay' hi h with h | h
  · exact h
  · exact ⟨relay', List.mem_set hlt _, hP h⟩

/-- A relay moves, and the manager makes no create or resume call. -/
theorem CallsInv.setRelay {relay' : Relay} {t : State} (h : CallsInv s)
    (hi : s.relays[i]? = some relay) (hrelays : t.relays = s.relays.set i relay')
    (hclient : relay'.client = relay.client) (hsessions : t.mgr.sessions = s.mgr.sessions)
    (hcreates : t.mgr.creates = s.mgr.creates) (hresumes : t.mgr.resumes = s.mgr.resumes)
    (hawaitCreate : ∀ k, .awaitCreate k ∈ relay.todo → .awaitCreate k ∈ relay'.todo ∨
      ∀ call, s.mgr.creates[k]? = some call → call.phase.pending = false)
    (hawaitResume : ∀ k, .awaitResume k ∈ relay.todo → .awaitResume k ∈ relay'.todo ∨
      ∀ call, s.mgr.resumes[k]? = some call → call.phase.pending = false) : CallsInv t := by
  have hclients : t.relays.map Relay.client = s.relays.map Relay.client := by
    rw [hrelays, clients_set hi hclient]
  refine ⟨hclients ▸ h.clients, ?_, ?_, ?_, ?_, ?_⟩
  · rw [hsessions, hclients]
    exact h.owners
  · rw [hcreates, hclients]
    exact h.creators
  · intro k call hk hpending
    rw [hcreates] at hk
    rw [hrelays]
    refine awaits_set hi (h.creates k call hk hpending) fun ⟨hown, hawait⟩ => ⟨hclient.trans hown, ?_⟩
    refine (hawaitCreate k hawait).resolve_right fun hdone => ?_
    rw [hdone call hk] at hpending
    contradiction
  · rw [hresumes, hclients]
    exact h.resumers
  · intro k call hk hpending
    rw [hresumes] at hk
    rw [hrelays]
    refine awaits_set hi (h.resumes k call hk hpending) fun ⟨hown, hawait⟩ => ⟨hclient.trans hown, ?_⟩
    refine (hawaitResume k hawait).resolve_right fun hdone => ?_
    rw [hdone call hk] at hpending
    contradiction

theorem length_creates {b : Sessions.Action} {mgr : Manager} (hmade : madeByRelay b = false)
    (hstep : s.mgr.step b = some mgr) : mgr.creates.length = s.mgr.creates.length := by
  cases b with
  | create | createAuto => contradiction
  | createStep k failure id =>
    obtain ⟨call, -, hstep⟩ := Option.bind_eq_some_iff.mp hstep
    obtain ⟨moved, hcreates, -⟩ := Manager.createStep_creates hstep
    rw [hcreates, List.length_set]
  | _ => rw [(Manager.step_frame hstep).creates rfl]

theorem length_resumes {b : Sessions.Action} {mgr : Manager} (hmade : madeByRelay b = false)
    (hstep : s.mgr.step b = some mgr) : mgr.resumes.length = s.mgr.resumes.length := by
  cases b with
  | resume => contradiction
  | resumeStep k =>
    obtain ⟨call, -, hstep⟩ := Option.bind_eq_some_iff.mp hstep
    obtain ⟨moved, hresumes, -⟩ := Manager.resumeStep_resumes hstep
    rw [hresumes, List.length_set]
  | _ => rw [(Manager.step_frame hstep).resumes rfl]

/-- A step of the manager: whoever owns a session afterwards owned it before or has made a call. -/
theorem CallsInv.mgrStep {b : Sessions.Action} {t : State} (h : CallsInv s)
    (hmade : madeByRelay b = false) (hstep : s.mgr.step b = some t.mgr)
    (hrelays : t.relays = s.relays) : CallsInv t where
  clients := hrelays ▸ h.clients
  owners disp session hsession := by
    rw [hrelays]
    cases Manager.step_sessions hstep with
    | keep hsessions => exact h.owners disp session (hsessions ▸ hsession)
    | insert s₀ k call hk _ hclient _ _ _ hsessions =>
      rw [hsessions, Table.get_put] at hsession
      split at hsession
      · obtain rfl := Option.some.inj hsession
        exact hclient ▸ h.creators k call hk
      · exact h.owners disp session hsession
    | resume disp₀ s₀ k call hk _ _ _ _ hsessions =>
      rw [hsessions, Table.get_put] at hsession
      split at hsession
      · obtain rfl := Option.some.inj hsession
        exact h.resumers k call hk
      · exact h.owners disp session hsession
    | remove disp₀ hsessions =>
      rw [hsessions] at hsession
      exact h.owners disp session (Table.get_of_get_remove hsession)
  creators k call' hk' := by
    obtain ⟨call, hk, hclient, -⟩ := Manager.create_before hstep (length_creates hmade hstep) hk'
    rw [hrelays, hclient]
    exact h.creators k call hk
  creates k call' hk' hpending := by
    obtain ⟨call, hk, hclient, hold⟩ := Manager.create_before hstep (length_creates hmade hstep) hk'
    rw [hrelays, hclient]
    exact h.creates k call hk (hold hpending)
  resumers k call' hk' := by
    obtain ⟨call, hk, hclient, -⟩ := Manager.resume_before hstep (length_resumes hmade hstep) hk'
    rw [hrelays, hclient]
    exact h.resumers k call hk
  resumes k call' hk' hpending := by
    obtain ⟨call, hk, hclient, hold⟩ := Manager.resume_before hstep (length_resumes hmade hstep) hk'
    rw [hrelays, hclient]
    exact h.resumes k call hk (hold hpending)

/-- A relay between two turns makes a create call and awaits it. -/
theorem CallsInv.create {call : CreateCall} (h : CallsInv s) (hi : s.relays[i]? = some relay)
    (hidle : relay.todo = []) (hclient : call.clientId = relay.client) :
    CallsInv ({ s with mgr := { s.mgr with creates := s.mgr.creates ++ [call] } }.setRelay i relay
      [.awaitCreate s.mgr.creates.length]) := by
  obtain ⟨hlt, -⟩ := List.getElem?_eq_some_iff.mp hi
  have hset : CallsInv (s.setRelay i relay [.awaitCreate s.mgr.creates.length]) := by
    refine h.setRelay hi rfl rfl rfl rfl rfl (fun k hk => ?_) fun k hk => ?_ <;>
      exact absurd hk (hidle ▸ List.not_mem_nil)
  have hmem : relay.client ∈ (s.relays.set i
      { relay with todo := [.awaitCreate s.mgr.creates.length] }).map Relay.client :=
    List.mem_map.mpr ⟨_, List.mem_set hlt _, rfl⟩
  refine ⟨hset.clients, hset.owners, fun k call' hk => ?_, fun k call' hk hpending => ?_,
    hset.resumers, hset.resumes⟩
  · change (s.mgr.creates ++ [call])[k]? = some call' at hk
    rw [List.getElem?_append] at hk
    split at hk
    · exact hset.creators k call' hk
    · rw [List.mem_singleton.mp (List.mem_of_getElem? hk), hclient]
      exact hmem
  · change (s.mgr.creates ++ [call])[k]? = some call' at hk
    rw [List.getElem?_append] at hk
    split at hk
    · exact hset.creates k call' hk hpending
    · rename_i hge
      obtain ⟨hone, -⟩ := List.getElem?_eq_some_iff.mp hk
      rw [List.length_singleton] at hone
      obtain rfl : k = s.mgr.creates.length := by omega
      rw [List.mem_singleton.mp (List.mem_of_getElem? hk), hclient]
      exact ⟨_, List.mem_set hlt _, rfl, List.mem_singleton_self _⟩

theorem CallsInv.resume {call : ResumeCall} (h : CallsInv s) (hi : s.relays[i]? = some relay)
    (hidle : relay.todo = []) (hclient : call.clientId = relay.client) :
    CallsInv ({ s with mgr := { s.mgr with resumes := s.mgr.resumes ++ [call] } }.setRelay i relay
      [.awaitResume s.mgr.resumes.length]) := by
  obtain ⟨hlt, -⟩ := List.getElem?_eq_some_iff.mp hi
  have hset : CallsInv (s.setRelay i relay [.awaitResume s.mgr.resumes.length]) := by
    refine h.setRelay hi rfl rfl rfl rfl rfl (fun k hk => ?_) fun k hk => ?_ <;>
      exact absurd hk (hidle ▸ List.not_mem_nil)
  have hmem : relay.client ∈ (s.relays.set i
      { relay with todo := [.awaitResume s.mgr.resumes.length] }).map Relay.client :=
    List.mem_map.mpr ⟨_, List.mem_set hlt _, rfl⟩
  refine ⟨hset.clients, hset.owners, hset.creators, hset.creates, fun k call' hk => ?_,
    fun k call' hk hpending => ?_⟩
  · change (s.mgr.resumes ++ [call])[k]? = some call' at hk
    rw [List.getElem?_append] at hk
    split at hk
    · exact hset.resumers k call' hk
    · rw [List.mem_singleton.mp (List.mem_of_getElem? hk), hclient]
      exact hmem
  · change (s.mgr.resumes ++ [call])[k]? = some call' at hk
    rw [List.getElem?_append] at hk
    split at hk
    · exact hset.resumes k call' hk hpending
    · rename_i hge
      obtain ⟨hone, -⟩ := List.getElem?_eq_some_iff.mp hk
      rw [List.length_singleton] at hone
      obtain rfl : k = s.mgr.resumes.length := by omega
      rw [List.mem_singleton.mp (List.mem_of_getElem? hk), hclient]
      exact ⟨_, List.mem_set hlt _, rfl, List.mem_singleton_self _⟩

theorem step_callsInv (h : CallsInv s) (ht : s.step a = some t) : CallsInv t := by
  cases a with
  | connect client negotiated =>
    obtain ⟨hnew, rfl⟩ := step_connect ht
    have hclients : ((s.relays ++ [Relay.mk client negotiated .empty [] [] false]).map Relay.client) =
        s.relays.map Relay.client ++ [client] := List.map_append
    refine ⟨?_, fun d x hx => ?_, fun k c hk => ?_, fun k c hk hp => ?_, fun k c hk => ?_,
      fun k c hk hp => ?_⟩
    · rw [hclients]
      exact List.nodup_append'.mpr ⟨h.clients, List.nodup_singleton _, by simpa using hnew⟩
    · rw [hclients]
      exact List.mem_append_left _ (h.owners d x hx)
    · rw [hclients]
      exact List.mem_append_left _ (h.creators k c hk)
    · obtain ⟨relay, hmem, hawaits⟩ := h.creates k c hk hp
      exact ⟨relay, List.mem_append_left _ hmem, hawaits⟩
    · rw [hclients]
      exact List.mem_append_left _ (h.resumers k c hk)
    · obtain ⟨relay, hmem, hawaits⟩ := h.resumes k c hk hp
      exact ⟨relay, List.mem_append_left _ hmem, hawaits⟩
  | mgr b =>
    obtain ⟨hmade, mgr, hstep, rfl⟩ := step_mgrAction ht
    exact h.mgrStep hmade hstep rfl
  | event r e =>
    obtain ⟨relay, hi, hidle, hturn⟩ := step_event ht
    have hidle' : ∀ o, o ∉ relay.todo := fun o => hidle ▸ List.not_mem_nil
    rcases hturn with ⟨-, rfl⟩ | ⟨b, mgr, hb, hstep, rfl⟩
    · exact h.setRelay hi rfl rfl rfl rfl rfl (fun k hk => absurd hk (hidle' _)) fun k hk =>
        absurd hk (hidle' _)
    · cases e with
      | sessionCreate | sessionAutoCreate =>
        obtain rfl := Option.some.inj hb
        obtain rfl := Option.some.inj hstep
        exact h.create hi hidle rfl
      | sessionResume =>
        obtain rfl := Option.some.inj hb
        obtain rfl := Option.some.inj hstep
        exact h.resume hi hidle rfl
      | disconnected id =>
        obtain rfl := Option.some.inj hb
        obtain ⟨-, rfl⟩ := Manager.step_unregister hstep
        exact h.setRelay hi rfl rfl rfl rfl rfl (fun k hk => absurd hk (hidle' _)) fun k hk =>
          absurd hk (hidle' _)
      | sessionDestroy | streamData | flowControl | congested | tick => contradiction
  | relayStep r =>
    obtain ⟨relay, op, rest, hi, htodo, hperform⟩ := step_relayStep ht
    obtain ⟨hsame, relay', hrelays, hmoved⟩ := (perform_effect hperform).moved
    refine h.setRelay hi hrelays hmoved.client hsame.sessions hsame.creates hsame.resumes
      (fun k hk => ?_) fun k hk => ?_
    · rw [htodo] at hk
      rcases List.mem_cons.mp hk with rfl | hrest
      · exact .inr fun call hk => perform_awaitCreate hperform hk
      · exact .inl (hmoved.keeps _ hrest)
    · rw [htodo] at hk
      rcases List.mem_cons.mp hk with rfl | hrest
      · exact .inr fun call hk => perform_awaitResume hperform hk
      · exact .inl (hmoved.keeps _ hrest)
  | relayEnd r =>
    obtain ⟨relay, hi, -, rfl⟩ := step_relayEnd ht
    exact h.setRelay hi rfl rfl rfl rfl rfl (fun _ hk => .inl hk) fun _ hk => .inl hk
  | discharge id n =>
    obtain rfl := Option.some.inj ht
    exact ⟨h.clients, h.owners, h.creators, h.creates, h.resumers, h.resumes⟩

/-! ## What the relays know -/

/-- The channels that a relay knows as paused have been registered, and an unregister call that it awaits
    is for the channel that it is about to forget. -/
structure Knows (s : State) (relay : Relay) : Prop where
  paused : ∀ id ∈ relay.peerPaused, s.mgr.Known id
  pausing : ∀ id, .setPeerPause id true ∈ relay.todo → s.mgr.Known id
  forgets : ∀ k id, .awaitUnregister k id ∈ relay.todo →
    ∃ call, s.mgr.unregisters[k]? = some call ∧ call.connectionId = id

theorem Knows.step (h : s.Knows relay) (ht : s.step a = some t) : t.Knows relay := by
  rcases step_mgr ht with hsame | ⟨b, hstep, -⟩
  · exact ⟨hsame ▸ h.paused, hsame ▸ h.pausing, hsame ▸ h.forgets⟩
  · refine ⟨fun id hid => (h.paused id hid).step hstep, fun id hid => (h.pausing id hid).step hstep,
      fun k id hid => ?_⟩
    obtain ⟨call, hk, hcall⟩ := h.forgets k id hid
    obtain ⟨call', hk', hsame⟩ := Manager.unregister_stays hstep hk
    exact ⟨call', hk', hsame.trans hcall⟩

/-- A relay that begins a turn knows what it knew between two turns. -/
theorem knows_turn {e : RelayEvent} (h : s.Knows relay) (ht : s.step (.event i e) = some t) :
    t.Knows { relay with todo := s.turn relay e } := by
  refine ⟨(h.step ht).paused, fun id hid => ?_, fun k id hid => ?_⟩
  · cases e <;> simp only [turn] at hid
    case flowControl => split at hid <;> simp at hid
    case tick => split at hid <;> simp at hid
    all_goals simp at hid
  · cases e <;> simp only [turn] at hid
    case flowControl => split at hid <;> simp at hid
    case tick => split at hid <;> simp at hid
    case disconnected id' =>
      obtain ⟨rfl, rfl⟩ : k = s.mgr.unregisters.length ∧ id = id' := by simpa using hid
      obtain ⟨relay₀, -, -, ⟨hnone, -⟩ | ⟨b, mgr, hb, hstep, rfl⟩⟩ := step_event ht
      · contradiction
      · obtain rfl := Option.some.inj hb
        obtain ⟨-, rfl⟩ := Manager.step_unregister hstep
        exact ⟨_, List.getElem?_concat_length, rfl⟩
    all_goals simp at hid

/-- A relay that does its first operation: what it is to pause, its client owned a moment ago. -/
theorem Knows.moved {relay' : Relay} (h : s.Knows relay) (hmgr : MgrInv s)
    (htodo : relay.todo = op :: rest) (hmoved : Moved s relay op rest relay') : s.Knows relay' := by
  have hmem : ∀ o, o ∈ rest → o ∈ relay.todo := fun o ho => htodo ▸ List.mem_cons_of_mem _ ho
  have hop : op ∈ relay.todo := htodo ▸ List.mem_cons_self
  refine ⟨fun id hid => ?_, fun id hid => ?_, fun k id hid => ?_⟩
  · rcases hmoved.paused id hid with hold | rfl
    · exact h.paused id hold
    · exact h.pausing id hop
  · rcases hmoved.spawns _ hid with hrest | hspawned
    · exact h.pausing id (hmem _ hrest)
    · cases op <;> simp only [Spawns, reduceCtorEq, exists_false] at hspawned
      obtain ⟨id', paused, heq, howns⟩ := hspawned
      obtain ⟨rfl, -⟩ := RelayOp.setPeerPause.inj heq
      unfold Manager.ownsConnection at howns
      split at howns
      · exact hmgr.reg.known ‹_›
      · contradiction
  · rcases hmoved.spawns _ hid with hrest | hspawned
    · exact h.forgets k id (hmem _ hrest)
    · cases op <;> simp [Spawns] at hspawned

theorem step_knows (h : ∀ relay ∈ s.relays, s.Knows relay) (hmgr : MgrInv s)
    (ht : s.step a = some t) : ∀ relay ∈ t.relays, t.Knows relay := by
  have hold : ∀ relay ∈ s.relays, t.Knows relay := fun relay hrelay => (h relay hrelay).step ht
  cases a with
  | connect client negotiated =>
    obtain ⟨-, rfl⟩ := step_connect ht
    refine forall_mem_snoc hold ⟨fun id hid => ?_, fun id hid => ?_, fun k id hid => ?_⟩ <;>
      exact absurd hid List.not_mem_nil
  | mgr b =>
    obtain ⟨-, mgr, -, rfl⟩ := step_mgrAction ht
    exact hold
  | event r e =>
    obtain ⟨relay, hi, -, hturn⟩ := step_event ht
    have hknows := knows_turn (h relay (List.mem_of_getElem? hi)) ht
    rcases hturn with ⟨-, rfl⟩ | ⟨b, mgr, -, -, rfl⟩ <;> exact forall_mem_set hold hknows
  | relayStep r =>
    obtain ⟨relay, op, rest, hi, htodo, hperform⟩ := step_relayStep ht
    obtain ⟨-, relay', hrelays, hmoved⟩ := (perform_effect hperform).moved
    rw [hrelays]
    exact forall_mem_set hold (((h relay (List.mem_of_getElem? hi)).moved hmgr htodo hmoved).step ht)
  | relayEnd r =>
    obtain ⟨relay, hi, -, rfl⟩ := step_relayEnd ht
    have hknows := hold relay (List.mem_of_getElem? hi)
    exact forall_mem_set hold ⟨hknows.paused, hknows.pausing, hknows.forgets⟩
  | discharge id n =>
    obtain rfl := Option.some.inj ht
    exact hold

/-! ## The gates -/

/-- The relay is in the middle of an ack for the display. -/
def Acking (s : State) (relay : Relay) (disp : DisplayNumber) : Prop :=
  ∃ op ∈ relay.todo, op.acking s.mgr disp

/-- The gates of the connections that the relay's client owns are as the relay wants them, but for the
    display of an ack that is not finished. -/
def GatesOf (s : State) (relay : Relay) : Prop :=
  relay.negotiated = true → relay.ended = false → ∀ id disp session,
    s.mgr.connections.get id = some disp → s.mgr.sessions.get disp = some session →
    session.clientId = relay.client → ¬ s.Acking relay disp → s.gated id = relay.desired id

def GatesInv (s : State) : Prop := ∀ (i : Nat) relay, s.relays[i]? = some relay → s.GatesOf relay

/-- An ack in progress goes on over a step of the manager. -/
theorem acking_mgrStep {b : Sessions.Action} {mgr : Manager} {disp : DisplayNumber}
    (hstep : s.mgr.step b = some mgr) (h : op.acking s.mgr disp) : op.acking mgr disp := by
  cases op with
  | awaitCreate k =>
    obtain ⟨call, hk, session, hsession, hdisp⟩ := h
    obtain ⟨call', hk', hsession'⟩ := Manager.create_session_stays hstep hk hsession
    exact ⟨call', hk', session, hsession', hdisp⟩
  | awaitResume k =>
    obtain ⟨call, hk, session, hsession, hdisp⟩ := h
    obtain ⟨call', hk', hsession'⟩ := Manager.resume_session_stays hstep hk hsession
    exact ⟨call', hk', session, hsession', hdisp⟩
  | _ => exact h

/-- The relay that awaits a call is the one with the id of the call's client. -/
theorem CallsInv.sole (h : CallsInv s) (hi : s.relays[i]? = some relay) {relay' : Relay}
    (hmem : relay' ∈ s.relays) (hclient : relay'.client = relay.client) : relay' = relay :=
  List.inj_on_of_nodup_map h.clients hmem (List.mem_of_getElem? hi) hclient

/-- A session that has got the relay's client as its owner: an ack for it is on its way. -/
theorem owner_before {b : Sessions.Action} {mgr : Manager} {disp : DisplayNumber} {session : Session}
    (hcalls : CallsInv s) (hi : s.relays[i]? = some relay)
    (hstep : s.mgr.step b = some mgr) (hsession : mgr.sessions.get disp = some session)
    (howner : session.clientId = relay.client) :
    (∃ session', s.mgr.sessions.get disp = some session' ∧ session'.clientId = relay.client) ∨
      ∃ op ∈ relay.todo, op.acking mgr disp := by
  cases Manager.step_sessions hstep with
  | keep hsessions => exact .inl ⟨session, hsessions ▸ hsession, howner⟩
  | insert s₀ k call hk hp hclient hk' _ _ hsessions =>
    rw [hsessions, Table.get_put] at hsession
    split at hsession
    · rename_i hdisp
      obtain rfl := Option.some.inj hsession
      obtain ⟨relay', hmem, hown, hawait⟩ := hcalls.creates k call hk (by rw [hp]; rfl)
      obtain rfl := hcalls.sole hi hmem (hown.trans (hclient.symm.trans howner))
      exact .inr ⟨_, hawait, _, hk', _, rfl, hdisp.symm⟩
    · exact .inl ⟨session, hsession, howner⟩
  | resume disp₀ s₀ k call hk hp hk' hfinds hget hsessions =>
    rw [hsessions, Table.get_put] at hsession
    split at hsession
    · rename_i hdisp
      obtain rfl := Option.some.inj hsession
      obtain ⟨relay', hmem, hown, hawait⟩ := hcalls.resumes k call hk (by rw [hp]; rfl)
      obtain rfl := hcalls.sole hi hmem (hown.trans howner)
      exact .inr ⟨_, hawait, _, hk', _, rfl, hdisp.symm⟩
    · exact .inl ⟨session, hsession, howner⟩
  | remove disp₀ hsessions =>
    rw [hsessions] at hsession
    exact .inl ⟨session, Table.get_of_get_remove hsession, howner⟩

theorem flowsAfter_inserting {j : Nat} {app : App} (hj : s.mgr.apps[j]? = some app)
    (hp : app.phase = .inserting) :
    s.flowsAfter (.appStep j) = s.flows.put app.connectionId ⟨.new s.high s.low, false⟩ := by
  obtain ⟨c, disp, origin, relay, phase⟩ := app
  subst hp
  simp only [flowsAfter, hj]

/-- A step of the manager changes the gate only of a connection that an application inserts. -/
theorem flowsAfter_cases (s : State) (b : Sessions.Action) : s.flowsAfter b = s.flows ∨
    ∃ j app, b = .appStep j ∧ s.mgr.apps[j]? = some app ∧ app.phase = .inserting := by
  unfold flowsAfter
  split
  · split
    · rename_i j _ _ _ _ _ hj
      exact .inr ⟨j, _, rfl, hj, rfl⟩
    · exact .inl rfl
  · exact .inl rfl

theorem GatesInv.mgrStep {b : Sessions.Action} {mgr : Manager} (h : GatesInv s) (hcalls : CallsInv s)
    (hmgr : MgrInv s) (hknows : ∀ relay ∈ s.relays, s.Knows relay)
    (hstep : s.mgr.step b = some mgr) : GatesInv { s with mgr := mgr, flows := s.flowsAfter b } := by
  intro i relay hi hneg hended id disp session hconn hsession howner hacking
  rcases owner_before hcalls hi hstep hsession howner with ⟨session', hsession', howner'⟩ | hack
  case inr => exact absurd hack hacking
  have hnot : ¬ s.Acking relay disp := by
    rintro ⟨op, hop, hack⟩
    exact hacking ⟨op, hop, acking_mgrStep hstep hack⟩
  -- a new connection has an open gate, and no relay knows of it
  have hnew : ∀ j app, b = .appStep j → s.mgr.apps[j]? = some app → app.phase = .inserting →
      { s with mgr := mgr, flows := s.flowsAfter b }.gated id =
        if id = app.connectionId then false else s.gated id := by
    intro j app hb hj hp
    subst hb
    unfold gated flowOf
    dsimp only
    rw [flowsAfter_inserting hj hp, Table.get_put]
    split <;> rfl
  rcases Manager.connection_before hstep hconn with hconn' | ⟨j, app, hb, hj, hp, hid⟩
  · have hgate := h i relay hi hneg hended id disp session' hconn' hsession' howner' hnot
    rcases flowsAfter_cases s b with hflows | ⟨j, app, hb, hj, hp⟩
    · rw [hflows]
      exact hgate
    · rw [hnew j app hb hj hp, if_neg ((hmgr.reg.known hconn').ne_inserting hmgr.reg hj hp)]
      exact hgate
  · have hunknown : id ∉ relay.peerPaused := fun hmem =>
      ((hknows relay (List.mem_of_getElem? hi)).paused id hmem).ne_inserting hmgr.reg hj hp hid.symm
    rw [hnew j app hb hj hp, if_pos hid.symm]
    simp [Relay.desired, egressDesired, hunknown]

/-- Owners and connections are as before, an ack in progress goes on, and gates are as wanted where they
    were. -/
theorem GatesOf.of_same {relay' : Relay} {t : State} (h : s.GatesOf relay)
    (hconnections : t.mgr.connections = s.mgr.connections)
    (hsessions : t.mgr.sessions = s.mgr.sessions) (hclient : relay'.client = relay.client)
    (hneg : relay'.negotiated = relay.negotiated) (hended : relay'.ended = false → relay.ended = false)
    (hgated : ∀ id disp session, s.mgr.connections.get id = some disp →
      s.mgr.sessions.get disp = some session → session.clientId = relay.client →
        ¬ t.Acking relay' disp → s.gated id = relay.desired id → t.gated id = relay'.desired id)
    (hacking : ∀ disp, s.Acking relay disp → t.Acking relay' disp) : t.GatesOf relay' := by
  intro hneg' hended' id disp session hconn hsession howner hnot
  rw [hconnections] at hconn
  rw [hsessions] at hsession
  rw [hclient] at howner
  refine hgated id disp session hconn hsession howner hnot ?_
  exact h (hneg ▸ hneg') (hended hended') id disp session hconn hsession howner
    fun hack => hnot (hacking disp hack)

theorem registered_of_get {id : ConnectionId} {disp : DisplayNumber}
    (h : s.mgr.connections.get id = some disp) : s.registered id = true := by
  rw [registered, h]
  rfl

theorem acking_same {disp : DisplayNumber} (hsame : SameCalls s t) (h : op.acking s.mgr disp) :
    op.acking t.mgr disp := by
  cases op with
  | awaitCreate k =>
    unfold RelayOp.acking
    rw [hsame.creates]
    exact h
  | awaitResume k =>
    unfold RelayOp.acking
    rw [hsame.resumes]
    exact h
  | _ => exact h

/-- The ack that a relay is in goes on after its first operation, if that one passes it on. -/
theorem acking_rest {relay' : Relay} {disp : DisplayNumber} (htodo : relay.todo = op :: rest)
    (hsame : SameCalls s t) (hkeeps : ∀ o ∈ rest, o ∈ relay'.todo)
    (hop : op.acking s.mgr disp → ∃ o ∈ relay'.todo, o.acking s.mgr disp)
    (h : s.Acking relay disp) : t.Acking relay' disp := by
  obtain ⟨o, ho, hack⟩ := h
  rw [htodo] at ho
  rcases List.mem_cons.mp ho with rfl | hrest
  · obtain ⟨o', ho', hack'⟩ := hop hack
    exact ⟨o', ho', acking_same hsame hack'⟩
  · exact ⟨o, hkeeps o hrest, acking_same hsame hack⟩

/-- A relay that has reset the gates of a display finds them as it wants them. -/
theorem GatesOf.reset {disp : DisplayNumber} {ids : List ConnectionId} (h : s.GatesOf relay)
    (htodo : relay.todo = .resetFlow disp ids :: rest) (hown : s.SetsOwn relay (.resetFlow disp ids)) :
    ((s.resetFlow ids).setRelay i relay rest).GatesOf { relay with todo := rest } := by
  intro hneg hended id d session hconn hsession howner hnot
  simp only [setRelay_mgr, resetFlow_mgr] at hconn hsession
  rw [gated_setRelay, gated_resetFlow]
  split
  · rename_i hmem
    exact (hown.1 id hmem.1 hmem.2).2.symm
  · rename_i hmem
    by_cases hd : d = disp
    · refine hown.2 (id, d) (Table.mem_entries.mpr hconn) hd fun hin => ?_
      exact hmem ⟨hin, registered_of_get hconn⟩
    · refine h hneg hended id d session hconn hsession howner ?_
      rintro ⟨o, ho, hack⟩
      rw [htodo] at ho
      rcases List.mem_cons.mp ho with rfl | hrest
      · exact hd hack.symm
      · refine hnot ⟨o, hrest, ?_⟩
        simpa only [setRelay_mgr, resetFlow_mgr] using hack

theorem desired_forget {id id' : ConnectionId} (h : id' ≠ id) :
    (relay.forget id).desired id' = relay.desired id' := by
  have hpaused : (relay.peerPaused.filter (· ≠ id)).contains id' = relay.peerPaused.contains id' := by
    rw [Bool.eq_iff_iff]
    simp [h]
  unfold Relay.desired Relay.forget
  rw [hpaused, Advertiser.isPaused_forget_of_ne _ h]

/-- The relay that does an operation. -/
theorem Effect.gates (h : Effect s i relay op rest t) (htodo : relay.todo = op :: rest)
    (hown : s.SetsOwn relay op) (hgates : s.GatesOf relay) (hmgr : MgrInv s) (hknows : s.Knows relay) :
    ∃ relay', t.relays = s.relays.set i relay' ∧ t.GatesOf relay' := by
  have hsame := h.moved.1
  cases h with
  | @pass flows advertiser todo hflows hpaused hreplaced =>
    refine ⟨_, rfl, hgates.of_same rfl rfl rfl rfl (fun h => h) ?_ fun disp => ?_⟩
    · intro id disp session _ _ _ _ hgate
      exact (hflows id).trans (hgate.trans (congrArg (egressDesired _) (hpaused id).symm))
    · exact acking_rest htodo hsame hreplaced.keeps (hreplaced.acking disp)
  | @sync id₀ advertiser peerPaused hmay hother hpeer hacking =>
    refine ⟨{ relay with advertiser := advertiser, peerPaused := peerPaused, todo := rest },
      by rw [setRelay_relays, syncEgress_relays], hgates.of_same hsame.connections hsame.sessions
        rfl rfl (fun h => h) ?_ fun disp => ?_⟩
    · intro id disp session hconn _ _ _ hgate
      rw [gated_setRelay, gated_syncEgress]
      by_cases hid : id = id₀
      · subst hid
        rw [if_pos ⟨rfl, registered_of_get hconn⟩]
        rfl
      · rw [if_neg fun h => hid h.1, hgate]
        exact (hother id hid).symm
    · exact acking_rest htodo hsame (fun _ h => h) fun hack => absurd hack (hacking disp)
  | @reset disp ids hop =>
    subst hop
    exact ⟨_, by rw [setRelay_relays, resetFlow_relays], hgates.reset htodo hown⟩
  | @forget k id₀ call hop hk hdone =>
    subst hop
    refine ⟨_, rfl, hgates.of_same rfl rfl rfl rfl (fun h => h) ?_ fun disp => ?_⟩
    · intro id disp session hconn _ _ _ hgate
      -- the channel that is forgotten is not registered any more
      have hid : id ≠ id₀ := by
        rintro rfl
        obtain ⟨call', hk', hcall⟩ := hknows.forgets k id (htodo ▸ List.mem_cons_self)
        obtain rfl := Option.some.inj (hk.symm.trans hk')
        rw [← hcall, hmgr.gone call (List.mem_of_getElem? hk) hdone] at hconn
        contradiction
      exact hgate.trans (desired_forget hid).symm
    · exact acking_rest htodo hsame (fun _ h => h) False.elim
  | manager hb hstep hreplaced =>
    refine ⟨_, rfl, hgates.of_same hsame.connections hsame.sessions rfl rfl (fun h => h) ?_ fun disp => ?_⟩
    · exact fun id disp session _ _ _ _ hgate => hgate
    · exact acking_rest htodo hsame hreplaced.keeps (hreplaced.acking disp)

/-- Another relay: the gates of its client's connections are left alone. -/
theorem Effect.gates_other {other : Relay} (h : Effect s i relay op rest t)
    (hne : other.client ≠ relay.client) (hown : s.SetsOwn relay op) (hgates : s.GatesOf other) :
    t.GatesOf other := by
  have hsame := h.moved.1
  refine hgates.of_same hsame.connections hsame.sessions rfl rfl (fun h => h) ?_ fun disp => ?_
  · intro id disp session hconn hsession howner _ hgate
    -- a connection that the moving relay may set the gate of is not one of this relay's client
    have hothers : ∀ relay₀ : Relay, relay₀.client = relay.client → ¬ s.NotOthers relay₀ id := by
      intro relay₀ hclient hmine
      exact hne (howner.symm.trans ((hmine disp hconn session hsession).trans hclient))
    refine Eq.trans ?_ hgate
    cases h with
    | pass hflows => exact hflows id
    | @sync id₀ advertiser peerPaused hmay =>
      rw [gated_setRelay, gated_syncEgress]
      split
      · rename_i hid
        obtain ⟨rfl, -⟩ := hid
        rcases hmay hown with hmine | hsync
        · exact absurd hmine (hothers _ rfl)
        · exact hsync.symm
      · rfl
    | @reset d ids hop =>
      subst hop
      rw [gated_setRelay, gated_resetFlow]
      split
      · rename_i hmem
        exact absurd (hown.1 id hmem.1 hmem.2).1 (hothers relay rfl)
      · rfl
    | forget | manager => rfl
  · rintro ⟨o, ho, hack⟩
    exact ⟨o, ho, acking_same hsame hack⟩

/-- A relay begins a turn: a call that it makes has not changed any owner yet. -/
theorem gates_turn {e : RelayEvent} (h : s.GatesOf relay) (hidle : relay.todo = []) {mgr : Manager}
    (hconnections : mgr.connections = s.mgr.connections) (hsessions : mgr.sessions = s.mgr.sessions) :
    ({ s with mgr := mgr }.setRelay i relay (s.turn relay e)).GatesOf
      { relay with todo := s.turn relay e } := by
  refine h.of_same hconnections hsessions rfl rfl (fun h => h) (fun _ _ _ _ _ _ _ hgate => hgate) ?_
  rintro disp ⟨o, ho, -⟩
  exact absurd ho (hidle ▸ List.not_mem_nil)

theorem event_keeps {e : RelayEvent} {b : Sessions.Action} {mgr : Manager}
    (hb : callOf relay.client e = some b) (hstep : s.mgr.step b = some mgr) :
    mgr.connections = s.mgr.connections ∧ mgr.sessions = s.mgr.sessions := by
  have hframe := Manager.step_frame hstep
  cases e <;> first | contradiction | (obtain rfl := Option.some.inj hb)
  all_goals exact ⟨hframe.connections rfl, hframe.sessions rfl⟩

theorem CallsInv.index_unique (h : CallsInv s) {r j : Nat} {relay relay' : Relay}
    (hr : s.relays[r]? = some relay) (hj : s.relays[j]? = some relay')
    (hclient : relay'.client = relay.client) : r = j := by
  obtain ⟨hlt, -⟩ := List.getElem?_eq_some_iff.mp hr
  refine (List.getElem?_inj (by simpa using hlt) h.clients).mp ?_
  rw [List.getElem?_map, List.getElem?_map, hr, hj, Option.map_some, Option.map_some, hclient]

theorem step_gatesInv (h : GatesInv s) (hcalls : CallsInv s) (hmgr : MgrInv s)
    (hknows : ∀ relay ∈ s.relays, s.Knows relay) (hg : GatesOwn s a) (ht : s.step a = some t) :
    GatesInv t := by
  -- one relay moves; `hothers` is for the others
  have hset : ∀ (r : Nat) relay relay', s.relays[r]? = some relay → t.relays = s.relays.set r relay' →
      t.GatesOf relay' →
      (∀ other : Relay, other.client ≠ relay.client → s.GatesOf other → t.GatesOf other) →
      GatesInv t := by
    intro r relay relay' hr hrelays hmoved hothers j relay'' hj
    rw [hrelays] at hj
    obtain ⟨-, rfl⟩ | ⟨hrj, hj⟩ := getElem?_of_set hj
    · exact hmoved
    · exact hothers relay'' (fun hclient => hrj (hcalls.index_unique hr hj hclient)) (h j relay'' hj)
  cases a with
  | connect client negotiated =>
    obtain ⟨hnew, rfl⟩ := step_connect ht
    intro j relay hj
    change (s.relays ++ [_])[j]? = some relay at hj
    rw [List.getElem?_append] at hj
    split at hj
    · exact h j relay hj
    · -- nobody owns anything under an id that has just been drawn
      obtain rfl := List.mem_singleton.mp (List.mem_of_getElem? hj)
      intro _ _ id disp session _ hsession howner
      have hclient : session.clientId = client := howner
      exact absurd (hclient ▸ hcalls.owners disp session hsession) hnew
  | mgr b =>
    obtain ⟨-, mgr, hstep, rfl⟩ := step_mgrAction ht
    exact h.mgrStep hcalls hmgr hknows hstep
  | event r e =>
    obtain ⟨relay, hr, hidle, ⟨-, rfl⟩ | ⟨b, mgr, hb, hstep, rfl⟩⟩ := step_event ht
    · exact hset r relay _ hr rfl (gates_turn (h r relay hr) hidle rfl rfl) fun other _ hother => hother
    · obtain ⟨hconnections, hsessions⟩ := event_keeps hb hstep
      refine hset r relay _ hr rfl (gates_turn (h r relay hr) hidle hconnections hsessions) ?_
      intro other _ hother
      refine hother.of_same hconnections hsessions rfl rfl (fun h => h)
        (fun _ _ _ _ _ _ _ hgate => hgate) ?_
      rintro disp ⟨o, ho, hack⟩
      exact ⟨o, ho, acking_mgrStep hstep hack⟩
  | relayStep r =>
    obtain ⟨relay, op, rest, hr, htodo, hperform⟩ := step_relayStep ht
    have heffect := perform_effect hperform
    have hown : s.SetsOwn relay op := hg relay hr op (by rw [htodo]; rfl)
    obtain ⟨relay', hrelays, hmoved⟩ := heffect.gates htodo hown (h r relay hr) hmgr
      (hknows relay (List.mem_of_getElem? hr))
    exact hset r relay relay' hr hrelays hmoved fun other hne hother =>
      heffect.gates_other hne hown hother
  | relayEnd r =>
    obtain ⟨relay, hr, -, rfl⟩ := step_relayEnd ht
    refine hset r relay _ hr rfl (fun _ hended => ?_) fun other _ hother => hother
    contradiction
  | discharge id n =>
    obtain rfl := Option.some.inj ht
    intro j relay hj
    refine (h j relay hj).of_same rfl rfl rfl rfl (fun h => h) ?_ fun disp hack => hack
    exact fun id' _ _ _ _ _ _ hgate => (gated_setMeter s id id' _).trans hgate

/-! ## Every run -/

structure EgressInv (s : State) : Prop where
  mgr : MgrInv s
  calls : CallsInv s
  knows : ∀ relay ∈ s.relays, s.Knows relay
  gates : GatesInv s

theorem step_egressInv (h : EgressInv s) (hg : GatesOwn s a) (ht : s.step a = some t) :
    EgressInv t where
  mgr := step_mgrInv h.mgr hg ht
  calls := step_callsInv h.calls ht
  knows := step_knows h.knows h.mgr ht
  gates := step_gatesInv h.gates h.calls h.mgr h.knows hg ht

theorem init_egressInv (high low : Nat) : EgressInv (init high low) where
  mgr := ⟨Manager.init_registryInv, fun _ h => absurd h List.not_mem_nil⟩
  calls := ⟨List.nodup_nil, nofun, nofun, nofun, nofun, nofun⟩
  knows _ h := absurd h List.not_mem_nil
  gates _ _ h := nomatch h

/-- **The gates follow the flow state.** In every run in which relays set gates as `GatesOwn` asks: for
    every relay with negotiated flow control, after every completed turn, the gate of each connection that
    its client owns is closed exactly when the client has paused it and the relay does not hold it paused;
    so the two directions of a channel are never both held. -/
theorem gates_follow_flow_state {high low : Nat} {as : List Action}
    (hmeets : Meets step GatesOwn (init high low) as) (hrun : run step (init high low) as = some s) :
    GatesDerived s ∧
      ∀ (i : Nat) relay, s.relays[i]? = some relay → relay.negotiated = true → relay.ended = false →
        relay.todo = [] → ∀ id, s.mgr.ownsConnection id relay.client = true →
          ¬ (s.gated id = true ∧ relay.advertiser.isPaused id = true) := by
  have hinv : EgressInv s :=
    run_inv (fun s a t h hg ht => step_egressInv h hg ht) (init_egressInv high low) hmeets hrun
  have hderived : GatesDerived s := by
    intro i relay hi hneg hended hidle id howns
    unfold Manager.ownsConnection Manager.ownsSession at howns
    split at howns
    · split at howns
      · rename_i disp hconn _ session hsession
        refine hinv.gates i relay hi hneg hended id disp session hconn hsession (by simpa using howns) ?_
        rintro ⟨o, ho, -⟩
        exact absurd ho (hidle ▸ List.not_mem_nil)
      · contradiction
    · contradiction
  refine ⟨hderived, fun i relay hi hneg hended hidle id howns hboth => ?_⟩
  have hgate := hderived i relay hi hneg hended hidle id howns
  rw [hboth.1, hboth.2] at hgate
  simp [egressDesired] at hgate

/-- A client connects and creates a session; an application connects. -/
def attached : List Action :=
  [.connect "alice" true, .event 0 (.sessionCreate ⟨3⟩ "MIT-MAGIC-COOKIE-1" [1])] ++
    List.replicate 5 (.mgr (.createStep 0 none ⟨"a"⟩)) ++ List.replicate 3 (.relayStep 0) ++
    .mgr (.accept ⟨3⟩ ⟨1⟩) :: List.replicate 4 (.mgr (.appStep 0))

/-- The client pauses the channel, the relay holds its other direction, and the relay's pause ends: the
    gate is closed, yields, and is closed again. -/
def pausedBothWays : List Action :=
  attached ++ [.event 0 (.flowControl (some ⟨1⟩) .pause), .relayStep 0, .relayStep 0,
    .event 0 (.streamData ⟨1⟩ 20), .relayStep 0, .relayStep 0, .relayStep 0,
    .event 0 (.congested (.resume ⟨1⟩)), .relayStep 0]

theorem gates_follow_flow_state_bothWays :
    ∃ s, run step (init 10 5) pausedBothWays = some s ∧ s.mgr.ownsConnection ⟨1⟩ "alice" = true ∧
      s.gated ⟨1⟩ = true ∧ s.relays.map Relay.todo = [[]] ∧ GatesDerived s := by
  have hlast : ∃ s ∈ run step (init 10 5) pausedBothWays,
      s.mgr.ownsConnection ⟨1⟩ "alice" = true ∧ s.gated ⟨1⟩ = true ∧ s.relays.map Relay.todo = [[]] := by
    decide +kernel
  obtain ⟨s, hs, howns, hgated, htodo⟩ := hlast
  have hmeets : Meets step GatesOwn (init 10 5) pausedBothWays := by decide +kernel
  exact ⟨s, hs, howns, hgated, htodo, (gates_follow_flow_state hmeets hs).1⟩

/-- The client pauses the channel and resumes its session on the same transport. -/
def resumedWhilePaused : List Action :=
  attached ++ [.event 0 (.flowControl (some ⟨1⟩) .pause), .relayStep 0, .relayStep 0,
    .event 0 (.sessionResume ⟨"a"⟩)] ++ List.replicate 3 (.mgr (.resumeStep 0)) ++
    List.replicate 3 (.relayStep 0)

/-- The relay is between two turns and knows the channel as paused; its gate is open. -/
theorem repeated_ack_opens_gate :
    ∃ s relay, run step (init 10 5) resumedWhilePaused = some s ∧ s.relays = [relay] ∧
      relay.negotiated = true ∧ relay.todo = [] ∧ s.mgr.ownsConnection ⟨1⟩ relay.client = true ∧
      relay.peerPaused.contains ⟨1⟩ = true ∧ relay.advertiser.isPaused ⟨1⟩ = false ∧
      s.gated ⟨1⟩ = false ∧ ¬ GatesDerived s := by
  have hlast : ∃ s ∈ run step (init 10 5) resumedWhilePaused, ∃ relay ∈ s.relays[0]?,
      s.relays = [relay] ∧ relay.negotiated = true ∧ relay.ended = false ∧ relay.todo = [] ∧
      s.mgr.ownsConnection ⟨1⟩ relay.client = true ∧ relay.peerPaused.contains ⟨1⟩ = true ∧
      relay.advertiser.isPaused ⟨1⟩ = false ∧ s.gated ⟨1⟩ = false := by decide +kernel
  obtain ⟨s, hs, relay, hi, hrelays, hneg, hended, htodo, howns, hpeer, hadv, hgate⟩ := hlast
  refine ⟨s, relay, hs, hrelays, hneg, htodo, howns, hpeer, hadv, hgate, fun hderived => ?_⟩
  have hwant := hderived 0 relay hi hneg hended htodo ⟨1⟩ howns
  rw [hgate, hpeer, hadv] at hwant
  contradiction

end State

end RemoteX11.Server.Relays
