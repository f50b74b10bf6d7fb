/-
  When nothing is in flight, the client holds open the channels of exactly the connections that the
  server has registered.

  The proof follows one connection id. What the state says about an id is its `View`: the task that
  has it on the server, the opening and closing that are on their way to the client, and the channel on the
  client. A step changes the view of one id only. `View.Good` says how the two ends fit together in every
  phase of the task.

  The server learns from the application alone that a connection is over, and ignores the `ChannelClose`
  of the client. A local X server that closes a channel first leaves the connection registered.
-/
import RemoteX11.Channels.System
import RemoteX11.Lib.Keyed

namespace RemoteX11.Channels

open RemoteX11.Lib RemoteX11.Protocol RemoteX11.Sessions

/-! ## Quiet states -/

namespace State

/-- Every task waits for an application or for the local X server. -/
def Resting (s : State) : Prop :=
  s.events = [] ∧ s.down = [] ∧ s.up = [] ∧ s.relay = .idle ∧ s.serve = .idle ∧
    (∀ e ∈ s.conns.zipIdx, e.1.phase = .ended ∨
      e.1.phase = .relaying ∧ e.1.inbox = [] ∧ s.connections.get e.1.connectionId = some e.2) ∧
    ∀ e ∈ s.pumps.zipIdx, e.1.phase = .ended ∨
      e.1.phase = .relaying ∧ e.1.inbox = [] ∧ s.channels.get e.1.connectionId = some e.2

instance (s : State) : Decidable s.Resting :=
  inferInstanceAs (Decidable (_ ∧ _ ∧ _ ∧ _ ∧ _ ∧ _ ∧ _))

theorem connStep_eq_none {s : State} {i : Nat} {conn : Conn} :
    s.connStep i conn = none ↔ conn.phase = .ended ∨
      conn.phase = .relaying ∧ conn.inbox = [] ∧ s.connections.get conn.connectionId = some i := by
  obtain ⟨c, phase, inbox⟩ := conn
  cases phase <;> cases inbox <;> simp [connStep]
  all_goals split <;> simp

theorem pumpStep_eq_none {s : State} {j : Nat} {pump : Pump} :
    s.pumpStep j pump = none ↔ pump.phase = .ended ∨
      pump.phase = .relaying ∧ pump.inbox = [] ∧ s.holds j pump.connectionId = true := by
  obtain ⟨c, phase, inbox⟩ := pump
  cases phase <;> cases inbox <;> simp [pumpStep]

theorem holds_of_idle {s : State} (hs : s.serve = .idle) (j : Nat) (c : ConnectionId) :
    s.holds j c = true ↔ s.channels.get c = some j := by
  simp [holds, hs]

/-- A state is quiet exactly when every task rests. -/
theorem quiet_iff_resting {s : State} : s.Quiet ↔ s.Resting := by
  constructor
  · rintro ⟨hevents, hdown, hup, htask⟩
    have hrelay : s.relay = .idle := by
      have := htask .relayEvent rfl
      cases hr : s.relay with
      | idle => rfl
      | closing c => simp [step, hr] at this
    have hserve : s.serve = .idle := by
      have hconnect := htask (.localConnect true) rfl
      have hinsert := htask .serveInsert rfl
      cases hs : s.serve with
      | idle => rfl
      | connecting c => simp [step, hs] at hconnect
      | inserting c j => simp [step, hs] at hinsert
    refine ⟨hevents, hdown, hup, hrelay, hserve, ?_, ?_⟩
    · rintro ⟨conn, i⟩ hmem
      rw [List.mem_zipIdx_iff_getElem?] at hmem
      have := htask (.connStep i) rfl
      simp only [step, hmem] at this
      exact connStep_eq_none.mp this
    · rintro ⟨pump, j⟩ hmem
      rw [List.mem_zipIdx_iff_getElem?] at hmem
      have := htask (.pumpStep j) rfl
      simp only [step, hmem] at this
      rw [← holds_of_idle hserve]
      exact pumpStep_eq_none.mp this
  · rintro ⟨hevents, hdown, hup, hrelay, hserve, hconns, hpumps⟩
    refine ⟨hevents, hdown, hup, fun a ha => ?_⟩
    cases a with
    | connStep i =>
      cases hi : s.conns[i]? with
      | none => simp [step, hi]
      | some conn =>
        simp only [step, hi]
        exact connStep_eq_none.mpr (hconns (conn, i) (List.mem_zipIdx_iff_getElem?.mpr hi))
    | pumpStep j =>
      cases hj : s.pumps[j]? with
      | none => simp [step, hj]
      | some pump =>
        simp only [step, hj]
        rw [pumpStep_eq_none, holds_of_idle hserve]
        exact hpumps (pump, j) (List.mem_zipIdx_iff_getElem?.mpr hj)
    | relayEvent => simp [step, hrelay, hevents]
    | relayFrame kept => simp [step, hrelay, hup]
    | serveFrame kept => simp [step, hserve, hdown]
    | localConnect ok => simp [step, hserve]
    | serveInsert => simp [step, hserve]
    | connect c => contradiction
    | appSends i data => contradiction
    | appCloses i => contradiction
    | localSends j data => contradiction
    | localCloses j => contradiction

end State

/-! ## The view of one connection id -/

/-- What is on its way to the client. -/
inductive Notice where
  | opens
  | closes
  deriving DecidableEq, Repr

def Event.notice (c : ConnectionId) : Event → Option Notice
  | .connected c' => if c' = c then some .opens else none
  | .data _ _ => none
  | .disconnected c' => if c' = c then some .closes else none

def ChannelFrame.notice (c : ConnectionId) : ChannelFrame → Option Notice
  | .channelOpen c' => if c' = c then some .opens else none
  | .streamData _ _ => none
  | .channelClose c' => if c' = c then some .closes else none

def RelayPhase.notice (c : ConnectionId) : RelayPhase → List Notice
  | .idle => []
  | .closing c' => if c' = c then [.closes] else []

/-- The serve loop, as far as it is busy with one id. -/
inductive Serving where
  | no
  | connecting
  | inserting (pump : Nat)
  deriving DecidableEq, Repr

def ServePhase.serving (c : ConnectionId) : ServePhase → Serving
  | .idle => .no
  | .connecting c' => if c' = c then .connecting else .no
  | .inserting c' j => if c' = c then .inserting j else .no

theorem ServePhase.serving_eq_inserting {c : ConnectionId} {serve : ServePhase} {j : Nat} :
    serve.serving c = .inserting j ↔ serve = .inserting c j := by
  cases serve with
  | idle => simp [ServePhase.serving]
  | connecting c' =>
    simp only [ServePhase.serving]
    split <;> simp
  | inserting c' j' =>
    simp only [ServePhase.serving]
    split <;> simp_all

/-- A connection task is live until it returns. -/
def Conn.live (conn : Conn) : Option (ConnectionId × ConnPhase) :=
  match conn.phase with
  | .ended => none
  | phase => some (conn.connectionId, phase)

def Pump.live (pump : Pump) : Option (ConnectionId × PumpPhase) :=
  match pump.phase with
  | .ended => none
  | phase => some (pump.connectionId, phase)

structure View where
  conn : Option (Nat × ConnPhase)
  entry : Option Nat
  listed : Bool
  notices : List Notice
  serving : Serving
  channel : Option Nat
  pump : Option (Nat × PumpPhase)

/-- Opening and closing of `c` that the client has not seen, in the order it will see them. -/
def State.notices (s : State) (c : ConnectionId) : List Notice :=
  s.down.filterMap (ChannelFrame.notice c) ++ s.relay.notice c ++ s.events.filterMap (Event.notice c)

def State.view (s : State) (c : ConnectionId) : View where
  conn := locate Conn.live s.conns c
  entry := s.connections.get c
  listed := s.displayConns.contains c
  notices := s.notices c
  serving := s.serve.serving c
  channel := s.channels.get c
  pump := locate Pump.live s.pumps c

namespace View

/-- Nothing on the client has to do with the id. -/
def Absent (v : View) : Prop := v.serving = .no ∧ v.channel = none ∧ v.pump = none

/-- The client serves the channel or is about to. -/
def Served (v : View) : Prop :=
  v.serving = .connecting ∨
    ∃ j, v.pump = some (j, .relaying) ∧
      (v.serving = .inserting j ∨ v.serving = .no ∧ v.channel = some j)

/-- The connection is over and the client has been told or will be. -/
def Closing (v : View) : Prop :=
  v.notices = [.opens, .closes] ∧ v.Absent ∨ v.notices = [.closes] ∨
    v.notices = [] ∧ v.serving = .no ∧ v.channel = none

/-- How the two ends fit together, by the phase of the connection task. -/
def Agrees (v : View) : Prop :=
  match v.conn with
  | none => v.entry = none ∧ v.listed = false ∧ v.Closing
  | some (_, .attached) | some (_, .inserting) =>
    v.entry = none ∧ v.listed = false ∧ v.notices = [] ∧ v.Absent
  | some (i, .listing) => v.entry = some i ∧ v.listed = false ∧ v.notices = [] ∧ v.Absent
  | some (i, .announcing) => v.entry = some i ∧ v.listed = true ∧ v.notices = [] ∧ v.Absent
  | some (i, .relaying) => v.entry = some i ∧ v.listed = true ∧
      (v.notices = [.opens] ∧ v.Absent ∨ v.notices = [] ∧ v.Served)
  | some (i, .leaving) => v.entry = some i ∧ v.listed = true ∧
      (v.notices = [.opens] ∧ v.Absent ∨ v.notices = [])
  | some (i, .unregistering) =>
      (v.entry = some i ∧ v.listed = true ∨ v.entry = none ∧ v.listed = false) ∧ v.Closing
  | some (_, .ended) => False

/-- `Agrees`, and while the client connects there is no pump yet. -/
def Good (v : View) : Prop := v.Agrees ∧ (v.serving = .connecting → v.pump = none)

end View

/-! ## Steps and views -/

/-- From `s` to `t` the view of `c` changes by `f` and no other view changes. -/
def Touches (c : ConnectionId) (f : View → View) (s t : State) : Prop :=
  ∀ c', t.view c' = if c' = c then f (s.view c') else s.view c'

theorem Touches.trans {c : ConnectionId} {f g : View → View} {s t u : State} (h : Touches c f s t)
    (h' : Touches c g t u) : Touches c (fun v => g (f v)) s u := by
  intro c'
  rw [h' c', h c']
  split <;> rfl

theorem touches_none (c : ConnectionId) (s : State) : Touches c (fun v => v) s s := by
  intro c'
  rw [ite_self]

/-- What is seen of a task in `phase`. -/
def ConnPhase.seen (i : Nat) : ConnPhase → Option (Nat × ConnPhase)
  | .ended => none
  | phase => some (i, phase)

def PumpPhase.seen (j : Nat) : PumpPhase → Option (Nat × PumpPhase)
  | .ended => none
  | phase => some (j, phase)

theorem Conn.live_eq {conn : Conn} (h : conn.phase ≠ .ended) :
    conn.live = some (conn.connectionId, conn.phase) := by
  obtain ⟨c, phase, inbox⟩ := conn
  cases phase <;> simp_all [Conn.live]

theorem Pump.live_eq {pump : Pump} (h : pump.phase ≠ .ended) :
    pump.live = some (pump.connectionId, pump.phase) := by
  obtain ⟨c, phase, inbox⟩ := pump
  cases phase <;> simp_all [Pump.live]

theorem Conn.of_live {conn : Conn} {c : ConnectionId} {phase : ConnPhase}
    (h : conn.live = some (c, phase)) :
    conn.connectionId = c ∧ conn.phase = phase ∧ conn.phase ≠ .ended := by
  obtain ⟨c', phase', inbox⟩ := conn
  cases phase'
  case ended => contradiction
  all_goals
    simp only [Conn.live, Option.some.injEq, Prod.mk.injEq] at h
    exact ⟨h.1, h.2, by simp⟩

theorem Pump.of_live {pump : Pump} {c : ConnectionId} {phase : PumpPhase}
    (h : pump.live = some (c, phase)) :
    pump.connectionId = c ∧ pump.phase = phase ∧ pump.phase ≠ .ended := by
  obtain ⟨c', phase', inbox⟩ := pump
  cases phase'
  case ended => contradiction
  all_goals
    simp only [Pump.live, Option.some.injEq, Prod.mk.injEq] at h
    exact ⟨h.1, h.2, by simp⟩

/-- No two live tasks of one side have the same id. -/
structure State.Distinct (s : State) : Prop where
  conns : Keyed Conn.live s.conns
  pumps : Keyed Pump.live s.pumps

section Touches

variable {s : State} {c : ConnectionId} {i j : Nat} {conn : Conn} {pump : Pump}

/-- A connection task moves to `conn'`. -/
theorem touches_conns_set (hs : s.Distinct) (hi : s.conns[i]? = some conn)
    (hlive : conn.phase ≠ .ended) {conn' : Conn} (hid : conn'.connectionId = conn.connectionId) :
    State.Distinct { s with conns := s.conns.set i conn' } ∧
      Touches conn.connectionId (fun v => { v with conn := conn'.phase.seen i }) s
        { s with conns := s.conns.set i conn' } := by
  have hmap : ∃ y, conn'.live = Option.map (Prod.mk conn.connectionId) y ∧
      y.map (Prod.mk i) = conn'.phase.seen i := by
    obtain ⟨c', phase, inbox⟩ := conn'
    simp only at hid
    subst hid
    cases phase
    case ended => exact ⟨none, rfl, rfl⟩
    all_goals exact ⟨some _, rfl, rfl⟩
  obtain ⟨y, hy, hseen⟩ := hmap
  refine ⟨⟨hs.conns.set hi (Conn.live_eq hlive) hy, hs.pumps⟩, fun c' => ?_⟩
  simp only [State.view, locate_set hs.conns hi (Conn.live_eq hlive) hy, hseen]
  split <;> rfl

/-- A pump moves to `pump'`. -/
theorem touches_pumps_set (hs : s.Distinct) (hj : s.pumps[j]? = some pump)
    (hlive : pump.phase ≠ .ended) {pump' : Pump} (hid : pump'.connectionId = pump.connectionId) :
    State.Distinct { s with pumps := s.pumps.set j pump' } ∧
      Touches pump.connectionId (fun v => { v with pump := pump'.phase.seen j }) s
        { s with pumps := s.pumps.set j pump' } := by
  have hmap : ∃ y, pump'.live = Option.map (Prod.mk pump.connectionId) y ∧
      y.map (Prod.mk j) = pump'.phase.seen j := by
    obtain ⟨c', phase, inbox⟩ := pump'
    simp only at hid
    subst hid
    cases phase
    case ended => exact ⟨none, rfl, rfl⟩
    all_goals exact ⟨some _, rfl, rfl⟩
  obtain ⟨y, hy, hseen⟩ := hmap
  refine ⟨⟨hs.conns, hs.pumps.set hj (Pump.live_eq hlive) hy⟩, fun c' => ?_⟩
  simp only [State.view, locate_set hs.pumps hj (Pump.live_eq hlive) hy, hseen]
  split <;> rfl

theorem touches_connections_put :
    Touches c (fun v => { v with entry := some i }) s
      { s with connections := s.connections.put c i } := by
  intro c'
  simp only [State.view, Table.get_put]
  split <;> rfl

theorem touches_displayConns_insert :
    Touches c (fun v => { v with listed := true }) s
      { s with displayConns := s.displayConns.insert c } := by
  intro c'
  simp only [State.view]
  split
  · rename_i hc
    subst hc
    simp [State.notices]
  · rename_i hc
    have hlisted : (s.displayConns.insert c).contains c' = s.displayConns.contains c' := by
      simp [hc]
    simp only [hlisted]
    rfl

/-- An event is sent that the client will see as `n`. -/
theorem touches_events {e : Event} {n : Notice}
    (he : ∀ c', Event.notice c' e = if c = c' then some n else none) :
    Touches c (fun v => { v with notices := v.notices ++ [n] }) s
      { s with events := s.events ++ [e] } := by
  intro c'
  by_cases hc : c' = c
  · subst hc
    simp [State.view, State.notices, he]
  · simp [State.view, State.notices, he, hc, Ne.symm hc]

theorem touches_channels_put :
    Touches c (fun v => { v with channel := some j }) s
      { s with channels := s.channels.put c j } := by
  intro c'
  simp only [State.view, Table.get_put]
  split <;> rfl

theorem touches_channels_remove :
    Touches c (fun v => { v with channel := none }) s
      { s with channels := s.channels.remove c } := by
  intro c'
  simp only [State.view, Table.get_remove]
  split <;> rfl

theorem touches_up {up : List ChannelFrame} : Touches c (fun v => v) s { s with up := up } := by
  intro c'
  rw [ite_self]
  rfl

/-- `unregister_x11_connection` touches the two maps of the server only. -/
theorem unregister_eq (s : State) (c : ConnectionId) : ∃ connections displayConns,
    s.unregisterX11Connection c =
      { s with connections := connections, displayConns := displayConns } := by
  unfold State.unregisterX11Connection
  cases s.connections.get c with
  | none => exact ⟨_, _, rfl⟩
  | some i => exact ⟨_, _, rfl⟩

/-- `unregister_x11_connection` takes the entry away, and the listing where there was an entry. -/
theorem touches_unregister :
    Touches c (fun v => { v with entry := none, listed := v.listed && v.entry.isNone }) s
      (s.unregisterX11Connection c) := by
  intro c'
  unfold State.unregisterX11Connection
  by_cases hc : c' = c
  · subst hc
    cases hentry : s.connections.get c' with
    | none => simp [State.view, hentry]
    | some i => simp [State.view, hentry, State.notices]
  · rw [if_neg hc]
    cases hentry : s.connections.get c with
    | none => rfl
    | some i =>
      have hlisted : (s.displayConns.filter (· ≠ c)).contains c' = s.displayConns.contains c' := by
        simp [hc]
      simp only [State.view, Table.get_remove, if_neg hc, hlisted]
      rfl

end Touches

/-! ## The invariant -/

structure Inv (s : State) : Prop where
  distinct : s.Distinct
  good : ∀ c, (s.view c).Good

theorem Inv.touch {s t : State} {c : ConnectionId} {f : View → View} (hs : Inv s)
    (ht : t.Distinct) (h : Touches c f s t) (hf : (f (s.view c)).Good) : Inv t := by
  refine ⟨ht, fun c' => ?_⟩
  rw [h c']
  split
  · rename_i hc
    rw [hc]
    exact hf
  · exact hs.good c'

/-- A step that no view shows. -/
theorem Inv.of_view_eq {s t : State} (hs : Inv s) (ht : t.Distinct) (h : ∀ c, t.view c = s.view c) :
    Inv t :=
  ⟨ht, fun c => by rw [h c]; exact hs.good c⟩

theorem inv_new : Inv State.new := by
  refine ⟨⟨keyed_nil _, keyed_nil _⟩, fun c => ⟨⟨rfl, rfl, .inr (.inr ⟨rfl, rfl, rfl⟩)⟩, ?_⟩⟩
  intro h
  contradiction

section Steps

variable {s t : State} {c : ConnectionId} {i j : Nat} {conn : Conn} {pump : Pump}

theorem Inv.view_conn (hs : Inv s) (hi : s.conns[i]? = some conn) (hlive : conn.phase ≠ .ended) :
    (s.view conn.connectionId).conn = some (i, conn.phase) :=
  locate_of_get hs.distinct.conns hi (Conn.live_eq hlive)

theorem Inv.view_pump (hs : Inv s) (hj : s.pumps[j]? = some pump) (hlive : pump.phase ≠ .ended) :
    (s.view pump.connectionId).pump = some (j, pump.phase) :=
  locate_of_get hs.distinct.pumps hj (Pump.live_eq hlive)

/-- A connection task moves to `phase`, and what else the step does is seen at its id alone. -/
theorem Inv.conn_moves {u : State} {f : View → View} {phase : ConnPhase} (hs : Inv s)
    (hi : s.conns[i]? = some conn) (hlive : conn.phase ≠ .ended) (hconns : u.conns = s.conns)
    (hpumps : u.pumps = s.pumps) (hu : Touches conn.connectionId f s u)
    (hgood : View.Good { f (s.view conn.connectionId) with conn := phase.seen i }) :
    Inv (u.setConn i conn phase) := by
  have hdistinct : u.Distinct := ⟨hconns ▸ hs.distinct.conns, hpumps ▸ hs.distinct.pumps⟩
  have hi' : u.conns[i]? = some conn := hconns ▸ hi
  obtain ⟨hd, ht⟩ := touches_conns_set hdistinct hi' hlive
    (rfl : ({ conn with phase := phase } : Conn).connectionId = conn.connectionId)
  exact hs.touch hd (hu.trans ht) hgood

/-- What a connection has in its queue is seen nowhere. -/
theorem Inv.conn_inbox (hs : Inv s) (hi : s.conns[i]? = some conn) (hlive : conn.phase ≠ .ended)
    (inbox : List Bytes) : Inv { s with conns := s.conns.set i { conn with inbox := inbox } } := by
  obtain ⟨hd, ht⟩ := touches_conns_set hs.distinct hi hlive
    (rfl : ({ conn with inbox := inbox } : Conn).connectionId = conn.connectionId)
  refine hs.touch hd ht ?_
  have hv := hs.view_conn hi hlive
  have hseen : conn.phase.seen i = some (i, conn.phase) := by
    cases hphase : conn.phase <;> simp_all [ConnPhase.seen]
  simp only [hseen, ← hv]
  exact hs.good conn.connectionId

theorem Inv.connStep (hs : Inv s) (hi : s.conns[i]? = some conn) (h : s.connStep i conn = some t) :
    Inv t := by
  obtain ⟨c, phase, inbox⟩ := conn
  have hgood := hs.good c
  cases phase with
  | ended => simp [State.connStep] at h
  | attached =>
    have hv := hs.view_conn hi (by simp)
    simp only [View.Good, View.Agrees, hv] at hgood
    simp only [State.connStep] at h
    split at h
    · obtain rfl := Option.some.inj h
      refine hs.conn_moves hi (by simp) rfl rfl (touches_none c s) ?_
      exact ⟨⟨hgood.1.1, hgood.1.2.1, .inr (.inr ⟨hgood.1.2.2.1, hgood.1.2.2.2.1, hgood.1.2.2.2.2.1⟩)⟩, hgood.2⟩
    · obtain rfl := Option.some.inj h
      exact hs.conn_moves hi (by simp) rfl rfl (touches_none c s) hgood
  | inserting =>
    have hv := hs.view_conn hi (by simp)
    simp only [View.Good, View.Agrees, hv] at hgood
    obtain rfl := Option.some.inj h
    exact hs.conn_moves hi (by simp) rfl rfl touches_connections_put ⟨⟨rfl, hgood.1.2⟩, hgood.2⟩
  | listing =>
    have hv := hs.view_conn hi (by simp)
    simp only [View.Good, View.Agrees, hv] at hgood
    obtain rfl := Option.some.inj h
    exact hs.conn_moves hi (by simp) rfl rfl touches_displayConns_insert
      ⟨⟨hgood.1.1, rfl, hgood.1.2.2⟩, hgood.2⟩
  | announcing =>
    have hv := hs.view_conn hi (by simp)
    simp only [View.Good, View.Agrees, hv] at hgood
    obtain rfl := Option.some.inj h
    obtain ⟨⟨hentry, hlisted, hnotices, habsent⟩, hconnecting⟩ := hgood
    refine hs.conn_moves hi (by simp) rfl rfl (touches_events fun _ => rfl)
      ⟨⟨hentry, hlisted, .inl ⟨?_, habsent⟩⟩, hconnecting⟩
    rw [hnotices]
    rfl
  | relaying =>
    have hv := hs.view_conn hi (by simp)
    simp only [View.Good, View.Agrees, hv] at hgood
    cases inbox with
    | cons data rest =>
      obtain rfl := Option.some.inj h
      exact hs.conn_inbox hi (by simp) rest
    | nil =>
      have hentry : s.connections.get c = some i := hgood.1.1
      simp [State.connStep, hentry] at h
  | leaving =>
    have hv := hs.view_conn hi (by simp)
    simp only [View.Good, View.Agrees, hv] at hgood
    obtain rfl := Option.some.inj h
    obtain ⟨⟨hentry, hlisted, hnotices⟩, hconnecting⟩ := hgood
    refine hs.conn_moves hi (by simp) rfl rfl (touches_events fun _ => rfl)
      ⟨⟨.inl ⟨hentry, hlisted⟩, ?_⟩, hconnecting⟩
    rcases hnotices with ⟨hnotices, habsent⟩ | hnotices
    · exact .inl ⟨by rw [hnotices]; rfl, habsent⟩
    · exact .inr (.inl (by rw [hnotices]; rfl))
  | unregistering =>
    have hv := hs.view_conn hi (by simp)
    simp only [View.Good, View.Agrees, hv] at hgood
    obtain rfl := Option.some.inj h
    obtain ⟨⟨hreg, hclosing⟩, hconnecting⟩ := hgood
    obtain ⟨connections, displayConns, heq⟩ := unregister_eq s c
    refine hs.conn_moves hi (by simp) (by rw [heq]) (by rw [heq]) touches_unregister
      ⟨⟨rfl, ?_, hclosing⟩, hconnecting⟩
    · rcases hreg with ⟨hentry, hlisted⟩ | ⟨hentry, hlisted⟩
      · simp [hentry]
      · simp [hlisted]

theorem Inv.pump_inbox (hs : Inv s) (hj : s.pumps[j]? = some pump) (hlive : pump.phase ≠ .ended)
    (inbox : List Bytes) : Inv { s with pumps := s.pumps.set j { pump with inbox := inbox } } := by
  obtain ⟨hd, ht⟩ := touches_pumps_set hs.distinct hj hlive
    (rfl : ({ pump with inbox := inbox } : Pump).connectionId = pump.connectionId)
  refine hs.touch hd ht ?_
  have hv := hs.view_pump hj hlive
  have hseen : pump.phase.seen j = some (j, pump.phase) := by
    cases hphase : pump.phase <;> simp_all [PumpPhase.seen]
  simp only [hseen, ← hv]
  exact hs.good pump.connectionId

/-- A pump moves to `phase`, and what else the step does is seen at its id alone. -/
theorem Inv.pump_moves {u : State} {f : View → View} {phase : PumpPhase} (hs : Inv s)
    (hj : s.pumps[j]? = some pump) (hlive : pump.phase ≠ .ended) (hconns : u.conns = s.conns)
    (hpumps : u.pumps = s.pumps) (hu : Touches pump.connectionId f s u)
    (hgood : View.Good { f (s.view pump.connectionId) with pump := phase.seen j }) :
    Inv (u.setPump j pump phase) := by
  have hdistinct : u.Distinct := ⟨hconns ▸ hs.distinct.conns, hpumps ▸ hs.distinct.pumps⟩
  have hj' : u.pumps[j]? = some pump := hpumps ▸ hj
  obtain ⟨hd, ht⟩ := touches_pumps_set hdistinct hj' hlive
    (rfl : ({ pump with phase := phase } : Pump).connectionId = pump.connectionId)
  exact hs.touch hd (hu.trans ht) hgood

/-- Frames to the server are seen nowhere. -/
theorem Inv.up (hs : Inv s) (up : List ChannelFrame) : Inv { s with up := up } :=
  hs.of_view_eq ⟨hs.distinct.conns, hs.distinct.pumps⟩ fun _ => rfl

/-- What the client may do about an id it knows: it serves the channel while the connection task relays,
    and opens nothing once it has seen the closing. -/
theorem View.Good.client {v w : View} (hv : v.Good) (hconn : w.conn = v.conn)
    (hentry : w.entry = v.entry) (hlisted : w.listed = v.listed) (hnotices : w.notices = v.notices)
    (hserved : ∀ i, v.conn = some (i, .relaying) → v.Served → w.Served) (hpresent : ¬ v.Absent)
    (hshut : v.serving = .no → v.channel = none → w.serving = .no ∧ w.channel = none)
    (hpump : w.serving = .connecting → w.pump = none) : w.Good := by
  obtain ⟨hagrees, -⟩ := hv
  refine ⟨?_, hpump⟩
  have hclosing : v.Closing → w.Closing := by
    rintro (⟨-, habsent⟩ | h | ⟨h, hserving, hchannel⟩)
    · exact absurd habsent hpresent
    · exact .inr (.inl (hnotices.trans h))
    · exact .inr (.inr ⟨hnotices.trans h, hshut hserving hchannel⟩)
  unfold View.Agrees at hagrees ⊢
  rw [hconn, hentry, hlisted, hnotices]
  rcases hc : v.conn with _ | ⟨i, phase⟩
  · simp only [hc] at hagrees
    exact ⟨hagrees.1, hagrees.2.1, hclosing hagrees.2.2⟩
  · simp only [hc] at hagrees
    cases phase with
    | attached => exact absurd hagrees.2.2.2 hpresent
    | inserting => exact absurd hagrees.2.2.2 hpresent
    | listing => exact absurd hagrees.2.2.2 hpresent
    | announcing => exact absurd hagrees.2.2.2 hpresent
    | relaying =>
      obtain ⟨he, hl, ⟨-, habsent⟩ | ⟨hn, h⟩⟩ := hagrees
      · exact absurd habsent hpresent
      · exact ⟨he, hl, .inr ⟨hn, hserved i hc h⟩⟩
    | leaving =>
      obtain ⟨he, hl, ⟨-, habsent⟩ | hn⟩ := hagrees
      · exact absurd habsent hpresent
      · exact ⟨he, hl, .inr hn⟩
    | unregistering => exact ⟨hagrees.1, hclosing hagrees.2⟩
    | ended => exact hagrees

theorem Inv.pumpStep (hs : Inv s) (hj : s.pumps[j]? = some pump) (h : s.pumpStep j pump = some t) :
    Inv t := by
  obtain ⟨c, phase, inbox⟩ := pump
  have hgood := hs.good c
  by_cases hended : phase = .ended
  · subst hended
    simp [State.pumpStep] at h
  have hv : (s.view c).pump = some (j, phase) := hs.view_pump hj hended
  have hpresent : ¬ (s.view c).Absent := by
    rintro ⟨-, -, hnone⟩
    rw [hv] at hnone
    contradiction
  have hconnecting : (s.view c).serving ≠ .connecting := by
    intro hserving
    rw [hgood.2 hserving] at hv
    contradiction
  cases phase with
  | ended => contradiction
  | relaying =>
    cases inbox with
    | cons data rest =>
      obtain rfl := Option.some.inj h
      exact hs.pump_inbox hj (by simp) rest
    | nil =>
      simp only [State.pumpStep] at h
      split at h
      · contradiction
      · rename_i hholds
        have hserved : ¬ (s.view c).Served := by
          rintro (hserving | ⟨j', hpump, hheld⟩)
          · exact hconnecting hserving
          · rw [hv, Option.some.injEq, Prod.mk.injEq] at hpump
            obtain ⟨rfl, -⟩ := hpump
            apply hholds
            rcases hheld with hserving | ⟨-, hchannel⟩
            · simp [State.holds, ServePhase.serving_eq_inserting.mp hserving]
            · have hentry : s.channels.get c = some j := hchannel
              simp [State.holds, hentry]
        obtain rfl := Option.some.inj h
        exact hs.pump_moves hj (by simp) rfl rfl (touches_none c s)
          (hgood.client rfl rfl rfl rfl (fun _ _ h => absurd h hserved) hpresent
            (fun hserving hchannel => ⟨hserving, hchannel⟩) fun hserving => absurd hserving hconnecting)
  | closing =>
    obtain rfl := Option.some.inj h
    have hserved : ¬ (s.view c).Served := by
      rintro (hserving | ⟨j', hpump, -⟩)
      · exact hconnecting hserving
      · rw [hv] at hpump
        cases hpump
    exact hs.pump_moves hj (by simp) rfl rfl touches_up
      (hgood.client rfl rfl rfl rfl (fun _ _ h => absurd h hserved) hpresent
        (fun hserving hchannel => ⟨hserving, hchannel⟩) fun hserving => absurd hserving hconnecting)
  | removing =>
    obtain rfl := Option.some.inj h
    have hserved : ¬ (s.view c).Served := by
      rintro (hserving | ⟨j', hpump, -⟩)
      · exact hconnecting hserving
      · rw [hv] at hpump
        cases hpump
    exact hs.pump_moves hj (by simp) rfl rfl touches_channels_remove
      (hgood.client rfl rfl rfl rfl (fun _ _ h => absurd h hserved) hpresent
        (fun hserving _ => ⟨hserving, rfl⟩) fun hserving => absurd hserving hconnecting)

theorem Inv.connect (hs : Inv s) (hconn : (s.view c).conn = none) (hnotices : s.notices c = [])
    (habsent : (s.view c).Absent) : Inv { s with conns := s.conns ++ [⟨c, .attached, []⟩] } := by
  have hlive : Conn.live ⟨c, .attached, []⟩ = some (c, .attached) := rfl
  have hagrees := (hs.good c).1
  simp only [View.Agrees, hconn] at hagrees
  have htouch : Touches c (fun v => { v with conn := some (s.conns.length, .attached) }) s
      { s with conns := s.conns ++ [⟨c, .attached, []⟩] } := by
    intro c'
    simp only [State.view, locate_snoc hs.distinct.conns hlive hconn]
    split <;> rfl
  exact hs.touch ⟨hs.distinct.conns.snoc hlive hconn, hs.distinct.pumps⟩ htouch
    ⟨⟨hagrees.1, hagrees.2.1, hnotices, habsent⟩, (hs.good c).2⟩

theorem Inv.appCloses {inbox : List Bytes} (hs : Inv s) (hi : s.conns[i]? = some ⟨c, .relaying, inbox⟩) :
    Inv (s.setConn i ⟨c, .relaying, inbox⟩ .leaving) := by
  have hgood := hs.good c
  have hv := hs.view_conn hi (by simp)
  simp only [View.Good, View.Agrees, hv] at hgood
  obtain ⟨⟨hentry, hlisted, hnotices⟩, hconnecting⟩ := hgood
  refine hs.conn_moves hi (by simp) rfl rfl (touches_none c s) ⟨⟨hentry, hlisted, ?_⟩, hconnecting⟩
  rcases hnotices with h | ⟨h, -⟩
  · exact .inl h
  · exact .inr h

/-- Once its closing is on the way, the connection may be unregistered. -/
theorem View.Good.unregister {v : View} (hv : v.Good) (hmem : .closes ∈ v.notices) :
    View.Good { v with entry := none, listed := v.listed && v.entry.isNone } := by
  obtain ⟨hagrees, hconnecting⟩ := hv
  refine ⟨?_, hconnecting⟩
  unfold View.Agrees at hagrees ⊢
  rcases hc : v.conn with _ | ⟨i, phase⟩
  · simp only [hc] at hagrees ⊢
    exact ⟨trivial, by rw [hagrees.2.1, Bool.false_and], hagrees.2.2⟩
  · simp only [hc] at hagrees ⊢
    cases phase with
    | attached => simp [hagrees.2.2.1] at hmem
    | inserting => simp [hagrees.2.2.1] at hmem
    | listing => simp [hagrees.2.2.1] at hmem
    | announcing => simp [hagrees.2.2.1] at hmem
    | relaying =>
      obtain ⟨-, -, ⟨hn, -⟩ | ⟨hn, -⟩⟩ := hagrees <;> simp [hn] at hmem
    | leaving =>
      obtain ⟨-, -, ⟨hn, -⟩ | hn⟩ := hagrees <;> simp [hn] at hmem
    | unregistering =>
      refine ⟨.inr ⟨trivial, ?_⟩, hagrees.2⟩
      rcases hagrees.1 with ⟨hentry, -⟩ | ⟨-, hlisted⟩
      · simp [hentry]
      · simp [hlisted]
    | ended => exact hagrees

/-- The relay takes an event or sends the `ChannelClose` it owes. -/
theorem Inv.relayEvent (hs : Inv s) (h : s.step .relayEvent = some t) : Inv t := by
  simp only [State.step] at h
  split at h
  · rename_i c hrelay
    obtain rfl := Option.some.inj h
    refine hs.of_view_eq ⟨hs.distinct.conns, hs.distinct.pumps⟩ fun c' => ?_
    by_cases hc : c = c' <;>
      simp [State.view, State.notices, RelayPhase.notice, ChannelFrame.notice, hrelay, hc]
  · rename_i event rest hrelay hevents
    obtain rfl := Option.some.inj h
    cases event with
    | connected c =>
      refine hs.of_view_eq ⟨hs.distinct.conns, hs.distinct.pumps⟩ fun c' => ?_
      by_cases hc : c = c' <;>
        simp [State.view, State.notices, RelayPhase.notice, ChannelFrame.notice, Event.notice,
          State.handleX11Event, hrelay, hevents, hc]
    | data c data =>
      refine hs.of_view_eq ⟨hs.distinct.conns, hs.distinct.pumps⟩ fun c' => ?_
      simp [State.view, State.notices, RelayPhase.notice, ChannelFrame.notice, Event.notice,
        List.filterMap_cons, State.handleX11Event, hrelay, hevents]
    | disconnected c =>
      have htouch : Touches c (fun v => { v with entry := none, listed := v.listed && v.entry.isNone }) s
          { s.unregisterX11Connection c with events := rest, relay := .closing c } := by
        intro c'
        obtain ⟨connections, displayConns, heq⟩ := unregister_eq s c
        rw [← touches_unregister c', heq]
        by_cases hc : c = c' <;>
          simp [State.view, State.notices, RelayPhase.notice, Event.notice, hrelay, hevents, hc]
      have ht : ({ s with events := rest } : State).handleX11Event (.disconnected c) =
          { s.unregisterX11Connection c with events := rest, relay := .closing c } := by
        simp only [State.handleX11Event, State.unregisterX11Connection]
        cases s.connections.get c <;> rfl
      rw [ht]
      have hmem : Notice.closes ∈ (s.view c).notices := by
        simp [State.view, State.notices, hevents, Event.notice]
      refine hs.touch ⟨?_, ?_⟩ htouch ((hs.good c).unregister hmem)
      · obtain ⟨connections, displayConns, heq⟩ := unregister_eq s c
        rw [heq]
        exact hs.distinct.conns
      · obtain ⟨connections, displayConns, heq⟩ := unregister_eq s c
        rw [heq]
        exact hs.distinct.pumps
  · contradiction

/-- `forward_to_x11` and the frames that are ignored. -/
theorem Inv.handleInboundFrame (hs : Inv s) (frame : ChannelFrame) (kept : Bool) :
    Inv (s.handleInboundFrame frame kept) := by
  cases frame with
  | channelOpen c => exact hs
  | channelClose c => exact hs
  | streamData c data =>
    simp only [State.handleInboundFrame, State.forwardToX11]
    split
    · split
      · split
        · split
          · rename_i conn hi hreceives
            refine hs.conn_inbox hi ?_ _
            intro hended
            simp [hended, ConnPhase.receives] at hreceives
          · exact hs
        · exact hs
      · exact hs
    · exact hs

/-- Taking a frame from the lane is seen at the id of the frame. -/
theorem touches_down {rest : List ChannelFrame} {frame : ChannelFrame} {n : Notice}
    (hdown : s.down = frame :: rest) (hframe : ∀ c', frame.notice c' = if c = c' then some n else none) :
    s.notices c = n :: ({ s with down := rest } : State).notices c ∧
      Touches c (fun v => { v with notices := v.notices.tail }) s { s with down := rest } := by
  have hnotices : ∀ c', s.notices c' =
      (if c = c' then [n] else []) ++ ({ s with down := rest } : State).notices c' := by
    intro c'
    simp only [State.notices, hdown, List.filterMap_cons, hframe]
    by_cases hc : c = c' <;> simp [hc]
  refine ⟨by rw [hnotices c, if_pos rfl]; rfl, fun c' => ?_⟩
  by_cases hc : c' = c
  · subst hc
    simp [State.view, hnotices]
  · simp [State.view, hnotices, hc, Ne.symm hc]

theorem touches_serve (c : ConnectionId) {serve : ServePhase}
    (h : ∀ c', c' ≠ c → serve.serving c' = s.serve.serving c') :
    Touches c (fun v => { v with serving := serve.serving c }) s { s with serve := serve } := by
  intro c'
  by_cases hc : c' = c
  · subst hc
    simp [State.view, State.notices]
  · simp [State.view, State.notices, hc, h c' hc]

/-- The client takes a `ChannelOpen`. -/
theorem View.Good.opened {v : View} {rest : List Notice} (hv : v.Good) (hn : v.notices = .opens :: rest) :
    View.Good { v with notices := rest, serving := .connecting } := by
  obtain ⟨hagrees, -⟩ := hv
  have hclosing : v.Closing → v.Absent ∧ rest = [.closes] := by
    rintro (⟨h, habsent⟩ | h | ⟨h, -⟩)
    · rw [hn, List.cons.injEq] at h
      exact ⟨habsent, h.2⟩
    · simp [hn] at h
    · simp [hn] at h
  unfold View.Agrees at hagrees
  rcases hc : v.conn with _ | ⟨i, phase⟩
  · simp only [hc] at hagrees
    obtain ⟨habsent, hrest⟩ := hclosing hagrees.2.2
    refine ⟨?_, fun _ => habsent.2.2⟩
    simp only [View.Agrees]
    exact ⟨hagrees.1, hagrees.2.1, .inr (.inl hrest)⟩
  · simp only [hc] at hagrees
    cases phase with
    | attached => simp [hagrees.2.2.1] at hn
    | inserting => simp [hagrees.2.2.1] at hn
    | listing => simp [hagrees.2.2.1] at hn
    | announcing => simp [hagrees.2.2.1] at hn
    | relaying =>
      obtain ⟨hentry, hlisted, ⟨h, habsent⟩ | ⟨h, -⟩⟩ := hagrees
      · rw [hn, List.cons.injEq] at h
        refine ⟨?_, fun _ => habsent.2.2⟩
        simp only [View.Agrees]
        exact ⟨hentry, hlisted, .inr ⟨h.2, .inl rfl⟩⟩
      · simp [hn] at h
    | leaving =>
      obtain ⟨hentry, hlisted, ⟨h, habsent⟩ | h⟩ := hagrees
      · rw [hn, List.cons.injEq] at h
        refine ⟨?_, fun _ => habsent.2.2⟩
        simp only [View.Agrees]
        exact ⟨hentry, hlisted, .inr h.2⟩
      · simp [hn] at h
    | unregistering =>
      obtain ⟨habsent, hrest⟩ := hclosing hagrees.2
      refine ⟨?_, fun _ => habsent.2.2⟩
      simp only [View.Agrees]
      exact ⟨hagrees.1, .inr (.inl hrest)⟩
    | ended => exact hagrees.elim

/-- The client takes a `ChannelClose`. -/
theorem View.Good.closed {v : View} {rest : List Notice} (hv : v.Good) (hn : v.notices = .closes :: rest)
    (hserving : v.serving = .no) : View.Good { v with notices := rest, channel := none } := by
  obtain ⟨hagrees, hconnecting⟩ := hv
  have hclosing : v.Closing → rest = [] := by
    rintro (⟨h, -⟩ | h | ⟨h, -⟩)
    · simp [hn] at h
    · rw [hn, List.cons.injEq] at h
      exact h.2
    · simp [hn] at h
  refine ⟨?_, hconnecting⟩
  unfold View.Agrees at hagrees ⊢
  rcases hc : v.conn with _ | ⟨i, phase⟩
  · simp only [hc] at hagrees ⊢
    exact ⟨hagrees.1, hagrees.2.1, .inr (.inr ⟨hclosing hagrees.2.2, hserving, rfl⟩)⟩
  · simp only [hc] at hagrees ⊢
    cases phase with
    | attached => simp [hagrees.2.2.1] at hn
    | inserting => simp [hagrees.2.2.1] at hn
    | listing => simp [hagrees.2.2.1] at hn
    | announcing => simp [hagrees.2.2.1] at hn
    | relaying =>
      obtain ⟨-, -, ⟨h, -⟩ | ⟨h, -⟩⟩ := hagrees <;> simp [hn] at h
    | leaving =>
      obtain ⟨-, -, ⟨h, -⟩ | h⟩ := hagrees <;> simp [hn] at h
    | unregistering => exact ⟨hagrees.1, .inr (.inr ⟨hclosing hagrees.2, hserving, rfl⟩)⟩
    | ended => exact hagrees

theorem Inv.sendDataToLocal (hs : Inv s) (hserve : s.serve = .idle) (data : Bytes) :
    Inv (s.sendDataToLocal c data) := by
  unfold State.sendDataToLocal
  split
  · rename_i j hchannel
    split
    · rename_i pump hj
      split
      · rename_i hended
        -- the pump is over, so the channel is not served any more
        have hgood := hs.good c
        have hview : (s.view c).channel = some j := hchannel
        have hserving : (s.view c).serving = .no := by
          simp [State.view, hserve, ServePhase.serving]
        have hpresent : ¬ (s.view c).Absent := by
          rintro ⟨-, hnone, -⟩
          rw [hview] at hnone
          contradiction
        have hserved : ¬ (s.view c).Served := by
          rintro (h | ⟨j', hpump, h | ⟨-, h⟩⟩)
          · rw [hserving] at h
            contradiction
          · rw [hserving] at h
            contradiction
          · rw [hview, Option.some.injEq] at h
            subst h
            obtain ⟨pump', hj', hlive⟩ := get_of_locate hpump
            rw [hj, Option.some.injEq] at hj'
            subst hj'
            exact (Pump.of_live hlive).2.2 hended
        refine hs.touch ⟨hs.distinct.conns, hs.distinct.pumps⟩ touches_channels_remove ?_
        refine hgood.client rfl rfl rfl rfl (fun _ _ h => absurd h hserved) hpresent
          (fun h _ => ⟨h, rfl⟩) fun h => ?_
        exact absurd (hserving.symm.trans h) (by simp)
      · rename_i hlive
        exact hs.pump_inbox hj hlive _
    · exact hs
  · exact hs

theorem Inv.serveFrame {kept : Bool} (hs : Inv s) (h : s.step (.serveFrame kept) = some t) : Inv t := by
  simp only [State.step] at h
  split at h
  · rename_i frame rest hserve hdown
    obtain rfl := Option.some.inj h
    have hserving : ∀ c, s.serve.serving c = .no := by
      intro c
      rw [hserve]
      rfl
    cases frame with
    | channelOpen c =>
      have hnotice : ∀ c', (ChannelFrame.channelOpen c).notice c' = if c = c' then some .opens else none :=
        fun _ => rfl
      obtain ⟨hn, htake⟩ := touches_down hdown hnotice
      refine hs.touch ⟨hs.distinct.conns, hs.distinct.pumps⟩ (htake.trans (touches_serve c ?_)) ?_
      · intro c' hc
        simp [ServePhase.serving, hserve, Ne.symm hc]
      · have htail : (s.view c).notices.tail = ({ s with down := rest } : State).notices c := by
          simp [State.view, hn]
        simp only [htail, ServePhase.serving, if_true]
        exact (hs.good c).opened hn
    | streamData c data =>
      have hs' : Inv { s with down := rest } := by
        refine hs.of_view_eq ⟨hs.distinct.conns, hs.distinct.pumps⟩ fun c' => ?_
        simp [State.view, State.notices, hdown, List.filterMap_cons, ChannelFrame.notice]
      simp only [State.dispatchFrame]
      split
      · exact hs'.sendDataToLocal hserve data
      · exact hs'
    | channelClose c =>
      have hnotice : ∀ c', (ChannelFrame.channelClose c).notice c' = if c = c' then some .closes else none :=
        fun _ => rfl
      obtain ⟨hn, htake⟩ := touches_down hdown hnotice
      refine hs.touch ⟨hs.distinct.conns, hs.distinct.pumps⟩ (htake.trans touches_channels_remove) ?_
      have htail : (s.view c).notices.tail = ({ s with down := rest } : State).notices c := by
        simp [State.view, hn]
      simp only [htail]
      exact (hs.good c).closed hn (by rw [State.view, hserve]; rfl)
  · contradiction

theorem Inv.localConnect_ok (hs : Inv s) (hserve : s.serve = .connecting c) :
    Inv { s with
      pumps := s.pumps ++ [⟨c, .relaying, []⟩]
      serve := .inserting c s.pumps.length } := by
  have hserving : (s.view c).serving = .connecting := by simp [State.view, hserve, ServePhase.serving]
  have hfree : locate Pump.live s.pumps c = none := (hs.good c).2 hserving
  have hlive : Pump.live ⟨c, .relaying, []⟩ = some (c, .relaying) := rfl
  have hspawn : Touches c (fun v => { v with pump := some (s.pumps.length, .relaying) }) s
      { s with pumps := s.pumps ++ [⟨c, .relaying, []⟩] } := by
    intro c'
    simp only [State.view, locate_snoc hs.distinct.pumps hlive hfree]
    split <;> rfl
  refine hs.touch ⟨hs.distinct.conns, hs.distinct.pumps.snoc hlive hfree⟩
    (hspawn.trans (touches_serve c ?_)) ?_
  · intro c' hc
    simp [ServePhase.serving, hserve, Ne.symm hc]
  · simp only [ServePhase.serving, if_true]
    refine (hs.good c).client rfl rfl rfl rfl ?_ ?_ ?_ ?_
    · exact fun _ _ _ => .inr ⟨_, rfl, .inl rfl⟩
    · rintro ⟨hno, -⟩
      rw [hserving] at hno
      contradiction
    · intro hno
      rw [hserving] at hno
      contradiction
    · simp

theorem Inv.localConnect_err (hs : Inv s) (hserve : s.serve = .connecting c)
    (hleft : ∀ i, (s.view c).conn ≠ some (i, .relaying)) : Inv { s with serve := .idle } := by
  have hserving : (s.view c).serving = .connecting := by simp [State.view, hserve, ServePhase.serving]
  refine hs.touch ⟨hs.distinct.conns, hs.distinct.pumps⟩ (touches_serve c ?_) ?_
  · intro c' hc
    simp [ServePhase.serving, hserve, Ne.symm hc]
  · refine (hs.good c).client rfl rfl rfl rfl (fun i hi => absurd hi (hleft i)) ?_ ?_ ?_
    · rintro ⟨hno, -⟩
      rw [hserving] at hno
      contradiction
    · intro hno
      rw [hserving] at hno
      contradiction
    · simp [ServePhase.serving]

theorem Inv.serveInsert (hs : Inv s) (hserve : s.serve = .inserting c j) :
    Inv { s with channels := s.channels.put c j, serve := .idle } := by
  have hserving : (s.view c).serving = .inserting j := ServePhase.serving_eq_inserting.mpr hserve
  refine hs.touch ⟨hs.distinct.conns, hs.distinct.pumps⟩
    (touches_channels_put.trans (touches_serve c ?_)) ?_
  · intro c' hc
    simp [ServePhase.serving, hserve, Ne.symm hc]
  · refine (hs.good c).client rfl rfl rfl rfl ?_ ?_ ?_ ?_
    · rintro i - (h | ⟨j', hpump, h | ⟨h, -⟩⟩)
      · rw [hserving] at h
        contradiction
      · rw [hserving, Serving.inserting.injEq] at h
        subst h
        exact .inr ⟨j, hpump, .inr ⟨rfl, rfl⟩⟩
      · rw [hserving] at h
        contradiction
    · rintro ⟨hno, -⟩
      rw [hserving] at hno
      contradiction
    · intro hno
      rw [hserving] at hno
      contradiction
    · simp [ServePhase.serving]

theorem Inv.localCloses {inbox : List Bytes} (hs : Inv s)
    (hj : s.pumps[j]? = some ⟨c, .relaying, inbox⟩)
    (hleft : ∀ i, (s.view c).conn ≠ some (i, .relaying)) :
    Inv (s.setPump j ⟨c, .relaying, inbox⟩ .closing) := by
  have hv := hs.view_pump hj (by simp)
  refine hs.pump_moves hj (by simp) rfl rfl (touches_none c s) ?_
  refine (hs.good c).client rfl rfl rfl rfl (fun i hi => absurd hi (hleft i)) ?_ ?_ ?_
  · rintro ⟨-, -, hnone⟩
    rw [hv] at hnone
    contradiction
  · exact fun hno hnone => ⟨hno, hnone⟩
  · intro hconnecting
    have hnone := (hs.good c).2 hconnecting
    rw [hv] at hnone
    contradiction

end Steps

/-! ## Runs -/

/-- The channel whose local connection is awaited. -/
def ServePhase.connectingTo : ServePhase → Option ConnectionId
  | .connecting c => some c
  | _ => none

namespace State

/-- The connection task of `c` is in its legs. -/
def Relaying (s : State) (c : ConnectionId) : Prop :=
  ∃ conn ∈ s.conns, conn.connectionId = c ∧ conn.phase = .relaying

/-- No task, frame or map entry of either side has to do with `c`. -/
def Unused (s : State) (c : ConnectionId) : Prop :=
  (∀ conn ∈ s.conns, conn.connectionId = c → conn.phase = .ended) ∧ s.notices c = [] ∧
    s.serve.serving c = .no ∧ s.channels.get c = none ∧
    ∀ pump ∈ s.pumps, pump.connectionId = c → pump.phase = .ended

instance (s : State) (c : ConnectionId) : Decidable (s.Relaying c) :=
  inferInstanceAs (Decidable (∃ conn ∈ s.conns, _))

instance (s : State) (c : ConnectionId) : Decidable (s.Unused c) :=
  inferInstanceAs (Decidable (_ ∧ _ ∧ _ ∧ _ ∧ _))

/-- The local X server refuses or closes a channel only when the connection on the server is leaving or
    gone, and an application draws an id that is not in use. -/
def EndsAtApplication (s : State) (a : Action) : Prop :=
  match a with
  | .connect c => s.Unused c
  | .localConnect false => ∀ c ∈ s.serve.connectingTo, ¬ s.Relaying c
  | .localCloses j => ∀ pump ∈ s.pumps[j]?, ¬ s.Relaying pump.connectionId
  | _ => True

instance (s : State) : (a : Action) → Decidable (s.EndsAtApplication a)
  | .connect c => inferInstanceAs (Decidable (s.Unused c))
  | .localConnect false => inferInstanceAs (Decidable (∀ c ∈ s.serve.connectingTo, _))
  | .localCloses j => inferInstanceAs (Decidable (∀ pump ∈ s.pumps[j]?, _))
  | .appSends _ _ | .appCloses _ | .connStep _ | .relayEvent | .relayFrame _ | .serveFrame _
  | .localConnect true | .serveInsert | .localSends _ _ | .pumpStep _ => isTrue trivial

end State

theorem view_not_relaying {s : State} {c : ConnectionId} (h : ¬ s.Relaying c) (i : Nat) :
    (s.view c).conn ≠ some (i, .relaying) := by
  intro hc
  obtain ⟨conn, hi, hlive⟩ := get_of_locate hc
  obtain ⟨hid, hphase, -⟩ := Conn.of_live hlive
  exact h ⟨conn, List.mem_of_getElem? hi, hid, hphase⟩

theorem view_unused {s : State} {c : ConnectionId} (h : s.Unused c) :
    (s.view c).conn = none ∧ s.notices c = [] ∧ (s.view c).Absent := by
  obtain ⟨hconns, hnotices, hserving, hchannel, hpumps⟩ := h
  refine ⟨?_, hnotices, hserving, hchannel, ?_⟩
  · rcases hc : (s.view c).conn with _ | ⟨i, phase⟩
    · rfl
    · obtain ⟨conn, hi, hlive⟩ := get_of_locate hc
      obtain ⟨hid, -, hne⟩ := Conn.of_live hlive
      exact absurd (hconns conn (List.mem_of_getElem? hi) hid) hne
  · rcases hp : (s.view c).pump with _ | ⟨j, phase⟩
    · rfl
    · obtain ⟨pump, hj, hlive⟩ := get_of_locate hp
      obtain ⟨hid, -, hne⟩ := Pump.of_live hlive
      exact absurd (hpumps pump (List.mem_of_getElem? hj) hid) hne

/-- One step keeps the two ends together. -/
theorem Inv.step {s t : State} {a : Action} (hs : Inv s) (ha : s.EndsAtApplication a)
    (h : s.step a = some t) : Inv t := by
  cases a with
  | connect c =>
    obtain ⟨hconn, hnotices, habsent⟩ := view_unused ha
    obtain rfl := Option.some.inj h
    exact hs.connect hconn hnotices habsent
  | appSends i data =>
    simp only [State.step] at h
    split at h
    · obtain rfl := Option.some.inj h
      refine hs.of_view_eq ⟨hs.distinct.conns, hs.distinct.pumps⟩ fun c' => ?_
      simp [State.view, State.notices, Event.notice, List.filterMap_cons]
    · contradiction
  | appCloses i =>
    simp only [State.step] at h
    split at h
    · rename_i c inbox hi
      obtain rfl := Option.some.inj h
      exact hs.appCloses hi
    · contradiction
  | connStep i =>
    simp only [State.step] at h
    split at h
    · rename_i conn hi
      exact hs.connStep hi h
    · contradiction
  | relayEvent => exact hs.relayEvent h
  | relayFrame kept =>
    simp only [State.step] at h
    split at h
    · rename_i frame rest hrelay hup
      obtain rfl := Option.some.inj h
      exact (hs.up rest).handleInboundFrame frame kept
    · contradiction
  | serveFrame kept => exact hs.serveFrame h
  | localConnect ok =>
    simp only [State.step] at h
    split at h
    · rename_i c hserve
      cases ok with
      | true =>
        obtain rfl := Option.some.inj h
        exact hs.localConnect_ok hserve
      | false =>
        obtain rfl := Option.some.inj h
        exact (hs.localConnect_err hserve (view_not_relaying (ha c (by rw [hserve]; rfl)))).up _
    · contradiction
  | serveInsert =>
    simp only [State.step] at h
    split at h
    · rename_i c j hserve
      obtain rfl := Option.some.inj h
      exact hs.serveInsert hserve
    · contradiction
  | localSends j data =>
    simp only [State.step] at h
    split at h
    · obtain rfl := Option.some.inj h
      exact hs.up _
    · contradiction
  | localCloses j =>
    simp only [State.step] at h
    split at h
    · rename_i c inbox hj
      obtain rfl := Option.some.inj h
      exact hs.localCloses hj (view_not_relaying (ha _ hj))
    · contradiction
  | pumpStep j =>
    simp only [State.step] at h
    split at h
    · rename_i pump hj
      exact hs.pumpStep hj h
    · contradiction

theorem mem_openChannels {s : State} {c : ConnectionId} :
    c ∈ s.openChannels ↔ (s.channels.get c).isSome = true := by
  rw [State.openChannels, List.mem_map, Option.isSome_iff_exists]
  constructor
  · rintro ⟨⟨c', j⟩, hmem, rfl⟩
    exact ⟨j, Table.mem_entries.mp hmem⟩
  · rintro ⟨j, hj⟩
    exact ⟨(c, j), Table.mem_entries.mpr hj, rfl⟩

/-- In a quiet state the maps of both sides have the same ids. -/
theorem Inv.quiet {s : State} (hs : Inv s) (hq : s.Quiet) (c : ConnectionId) :
    (c ∈ s.openChannels ↔ (s.connections.get c).isSome = true) ∧
      (c ∈ s.openChannels ↔ c ∈ s.displayConns) := by
  obtain ⟨hevents, hdown, -, hrelay, hserve, hconns, -⟩ := State.quiet_iff_resting.mp hq
  have hnotices : (s.view c).notices = [] := by
    simp [State.view, State.notices, hevents, hdown, hrelay, RelayPhase.notice]
  have hserving : (s.view c).serving = .no := by simp [State.view, hserve, ServePhase.serving]
  have hagrees := (hs.good c).1
  have hchannel : (s.channels.get c).isSome = (s.view c).channel.isSome := rfl
  have hentry : (s.connections.get c).isSome = (s.view c).entry.isSome := rfl
  have hlisted : (c ∈ s.displayConns) = ((s.view c).listed = true) := by simp [State.view]
  rw [mem_openChannels, hchannel, hentry, hlisted]
  rcases hc : (s.view c).conn with _ | ⟨i, phase⟩
  · simp only [View.Agrees, hc] at hagrees
    obtain ⟨hentry, hlisted, ⟨hn, -⟩ | hn | ⟨-, -, hnone⟩⟩ := hagrees
    · simp [hnotices] at hn
    · simp [hnotices] at hn
    · simp [hentry, hlisted, hnone]
  · -- a live task of a quiet state is in its legs
    have hphase : phase = .relaying := by
      obtain ⟨conn, hi, hlive⟩ := get_of_locate hc
      obtain ⟨-, hphase, hne⟩ := Conn.of_live hlive
      rcases hconns (conn, i) (List.mem_zipIdx_iff_getElem?.mpr hi) with hended | ⟨hrelaying, -⟩
      · exact absurd hended hne
      · exact hphase.symm.trans hrelaying
    subst hphase
    simp only [View.Agrees, hc] at hagrees
    obtain ⟨hentry, hlisted, ⟨hn, -⟩ | ⟨-, h | ⟨j, -, h | ⟨-, hopen⟩⟩⟩⟩ := hagrees
    · simp [hnotices] at hn
    · simp [hserving] at h
    · simp [hserving] at h
    · simp [hentry, hlisted, hopen]

/-- **The two ends agree.** In every quiet state of a run in which channels end at the application first,
    the client holds open exactly the channels whose connections the server has registered. -/
theorem channels_agree_when_quiet {as : List Action} {s : State}
    (hr : run State.step .new as = some s) (hm : Meets State.step State.EndsAtApplication .new as)
    (hq : s.Quiet) (c : ConnectionId) :
    (c ∈ s.openChannels ↔ (s.connections.get c).isSome = true) ∧
      (c ∈ s.openChannels ↔ c ∈ s.displayConns) := by
  have hinv : Inv s := run_inv (fun _ _ _ hs ha h => hs.step ha h) inv_new hm hr
  exact hinv.quiet hq c

/-- The actions that open a channel: the application connects and is announced, and the client reaches the
    local X server or not. -/
def opening (c : ConnectionId) (ok : Bool) : List Action :=
  [.connect c, .connStep 0, .connStep 0, .connStep 0, .connStep 0, .relayEvent, .serveFrame true,
    .localConnect ok]

/-- An application that is served: one channel, open at both ends. -/
theorem channels_agree_when_quiet_open :
    ∃ s, run State.step .new (opening ⟨1⟩ true ++ [.serveInsert]) = some s ∧ s.Quiet ∧
      ⟨1⟩ ∈ s.displayConns ∧ ⟨1⟩ ∈ s.openChannels := by
  have hlast : ∃ s ∈ run State.step .new (opening ⟨1⟩ true ++ [.serveInsert]), s.Resting ∧
      ⟨1⟩ ∈ s.displayConns := by decide +kernel
  obtain ⟨s, hs, hresting, hlisted⟩ := hlast
  have hmeets : Meets State.step State.EndsAtApplication .new (opening ⟨1⟩ true ++ [.serveInsert]) := by
    decide +kernel
  have hquiet := State.quiet_iff_resting.mpr hresting
  exact ⟨s, hs, hquiet, hlisted, (channels_agree_when_quiet hs hmeets hquiet ⟨1⟩).2.mpr hlisted⟩

/-- The local X server refuses the connection: the client reports it and the server takes no notice, so the
    application's connection stays registered. -/
theorem refused_channel_stays_registered :
    ¬ ∀ as s, run State.step .new as = some s → s.Quiet → ∀ c,
      (c ∈ s.openChannels ↔ (s.connections.get c).isSome = true) := by
  intro h
  have hlast : ∃ s ∈ run State.step .new (opening ⟨1⟩ false ++ [.relayFrame true]), s.Resting ∧
      s.openChannels = [] ∧ (s.connections.get ⟨1⟩).isSome = true := by decide +kernel
  obtain ⟨s, hs, hresting, hopen, hregistered⟩ := hlast
  have hmem := (h _ s hs (State.quiet_iff_resting.mpr hresting) ⟨1⟩).mpr hregistered
  rw [hopen] at hmem
  exact List.not_mem_nil hmem

end RemoteX11.Channels
