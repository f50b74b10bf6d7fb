/-
  The relay tasks and the flow state that they share (`relay/connection.rs`; `ConnFlow`, `egress_gate`,
  `upmeter_latched` and `reset_flow_for_display` of `session/mod.rs`), over the session manager.

  There is one relay task for each transport. What it does in one turn of its loop is a list of
  operations, `todo`; it waits for a lock before each of them, and other tasks run in between. Operations
  that change only the task's own `FlowState` are done together with the next access to a gate. A turn
  that calls the session manager makes a call there and goes on when the call has returned.

  The egress gate of a connection and its gauge are in the connection's entry of `connections`. A gate is
  closed when `egress` is true. The pumps discharge the gauges and report with events; what they read and
  write otherwise is not here, and neither are the frames that a turn sends.
-/
import RemoteX11.Sessions.Manager
import RemoteX11.Flow.Meter

namespace RemoteX11.Server.Relays

open RemoteX11.Lib RemoteX11.Protocol RemoteX11.Flow RemoteX11.Sessions

structure ConnFlow where
  upmeter : FlowMeter
  egress : Bool
  deriving DecidableEq, Repr

/-- What a relay task has yet to do in its turn. -/
inductive RelayOp where
  /-- the scope of an inbound `FlowControl` is resolved -/
  | flowControl (scope : Option ConnectionId) (action : FlowControlAction)
  /-- `set_peer_pause` -/
  | setPeerPause (id : ConnectionId) (paused : Bool)
  /-- `route_to_x11` for an inbound payload -/
  | route (id : ConnectionId) (len : Nat)
  /-- `deliver_charged` -/
  | charge (id : ConnectionId) (len : Nat)
  /-- `advertise_edge` -/
  | advertiseEdge (edge : FlowEdge)
  /-- one turn of the first loop of `re_advertise` -/
  | reconcile (id : ConnectionId)
  /-- the second loop of `re_advertise` -/
  | due
  /-- `sync_egress` -/
  | syncEgress (id : ConnectionId)
  /-- a call of the session manager is awaited, for `send_session_ack` -/
  | awaitCreate (call : Nat)
  | awaitResume (call : Nat)
  /-- `reset_flow_for_display`: the connections of the display, then their gates and gauges -/
  | readConns (disp : DisplayNumber)
  | resetFlow (disp : DisplayNumber) (ids : List ConnectionId)
  /-- the handler of `Disconnected`, once `unregister_x11_connection` has returned -/
  | awaitUnregister (call : Nat) (id : ConnectionId)
  /-- the handler of `SessionDestroy` -/
  | sessionDestroy (disp : DisplayNumber)
  | callDestroy (disp : DisplayNumber)
  | awaitDestroy (call : Nat)
  deriving DecidableEq, Repr

/-- A relay task with its `FlowState`. -/
structure Relay where
  /-- `transport_id` -/
  client : String
  negotiated : Bool
  advertiser : Advertiser
  peerPaused : List ConnectionId
  todo : List RelayOp
  ended : Bool
  deriving DecidableEq, Repr

structure State where
  mgr : Manager
  flows : Table ConnectionId ConnFlow
  relays : List Relay
  /-- the watermarks of `FlowMeter::from_runtime` -/
  high : Nat
  low : Nat
  deriving DecidableEq, Repr

/-- What a relay task takes up between two turns of its loop: an inbound frame, an event of an
    application or the tick. Frames and events that touch no flow state and call nothing are left out. -/
inductive RelayEvent where
  | sessionCreate (disp : DisplayNumber) (authName : String) (authData : Bytes)
  | sessionAutoCreate (authName : String) (authData : Bytes)
  | sessionResume (id : SessionId)
  | sessionDestroy (disp : DisplayNumber)
  | streamData (id : ConnectionId) (len : Nat)
  | flowControl (scope : Option ConnectionId) (action : FlowControlAction)
  | congested (edge : FlowEdge)
  | disconnected (id : ConnectionId)
  | tick
  deriving DecidableEq, Repr

inductive Action where
  /-- a client has authenticated; `client` is the uuid of its transport -/
  | connect (client : String) (negotiated : Bool)
  /-- a step of the session manager -/
  | mgr (a : Sessions.Action)
  | event (r : Nat) (e : RelayEvent)
  /-- the task goes on with its turn -/
  | relayStep (r : Nat)
  | relayEnd (r : Nat)
  /-- a pump has written to its application, or a delivery is retracted -/
  | discharge (id : ConnectionId) (n : Nat)
  deriving DecidableEq, Repr

/-- `egress_desired`. -/
def egressDesired (peerPaused wePauseUpAdvertised : Bool) : Bool :=
  peerPaused && !wePauseUpAdvertised

/-- What the gate of a channel should be, as the task sees it. -/
def Relay.desired (relay : Relay) (id : ConnectionId) : Bool :=
  egressDesired (relay.peerPaused.contains id) (relay.advertiser.isPaused id)

/-- `peer_paused` after a pause or resume. -/
def Relay.notePeer (relay : Relay) (id : ConnectionId) (paused : Bool) : Relay :=
  { relay with
    peerPaused := if paused then relay.peerPaused.insert id else relay.peerPaused.filter (· ≠ id) }

/-- `record` of an edge. -/
def Relay.record (relay : Relay) (edge : FlowEdge) : Relay :=
  { relay with advertiser := (relay.advertiser.record edge).2 }

/-- The channel is closed. -/
def Relay.forget (relay : Relay) (id : ConnectionId) : Relay :=
  { relay with
    advertiser := relay.advertiser.forget id
    peerPaused := relay.peerPaused.filter (· ≠ id) }

namespace State

def registered (s : State) (id : ConnectionId) : Bool := (s.mgr.connections.get id).isSome

def flowOf (s : State) (id : ConnectionId) : ConnFlow :=
  (s.flows.get id).getD ⟨.new s.high s.low, false⟩

/-- The gate of the connection is closed. -/
def gated (s : State) (id : ConnectionId) : Bool := (s.flowOf id).egress

def setGate (s : State) (id : ConnectionId) (gated : Bool) : State :=
  { s with flows := s.flows.put id { s.flowOf id with egress := gated } }

def setMeter (s : State) (id : ConnectionId) (meter : FlowMeter) : State :=
  { s with flows := s.flows.put id { s.flowOf id with upmeter := meter } }

/-- `sync_egress`; a channel that is not registered has no gate. -/
def syncEgress (s : State) (relay : Relay) (id : ConnectionId) : State :=
  if s.registered id then s.setGate id (relay.desired id) else s

/-- `upmeter_latched`. -/
def upmeterLatched (s : State) (id : ConnectionId) : Bool :=
  s.registered id && (s.flowOf id).upmeter.latched

/-- `connection_ids_for_client`. -/
def connectionIdsForClient (s : State) (client : String) : List ConnectionId :=
  (s.mgr.connections.entries.map Prod.fst).filter fun id => s.mgr.ownsConnection id client

/-- The gate and gauge of one connection are reset. -/
def resetConn (s : State) (id : ConnectionId) : State :=
  if s.registered id then
    { s with flows := s.flows.put id ⟨(s.flowOf id).upmeter.reset, false⟩ }
  else s

/-- The second section of `reset_flow_for_display`. -/
def resetFlow (s : State) (ids : List ConnectionId) : State := ids.foldl resetConn s

def setRelay (s : State) (i : Nat) (relay : Relay) (todo : List RelayOp) : State :=
  { s with relays := s.relays.set i { relay with todo := todo } }

/-- The task does the first operation of its list; `rest` comes after it. -/
def perform (s : State) (i : Nat) (relay : Relay) (op : RelayOp) (rest : List RelayOp) :
    Option State :=
  match op with
  | .flowControl (some id) action =>
    if s.mgr.ownsConnection id relay.client then
      some (s.setRelay i relay (.setPeerPause id (action = .pause) :: rest))
    else some (s.setRelay i relay rest)
  | .flowControl none action =>
    some (s.setRelay i relay
      ((s.connectionIdsForClient relay.client).map (.setPeerPause · (action = .pause)) ++ rest))
  | .setPeerPause id paused =>
    let relay := relay.notePeer id paused
    some ((s.syncEgress relay id).setRelay i relay rest)
  | .route id len =>
    if s.mgr.ownsConnection id relay.client then some (s.setRelay i relay (.charge id len :: rest))
    else some (s.setRelay i relay rest)
  | .charge id len =>
    let (edge, meter) := (s.flowOf id).upmeter.charge len
    some ((s.setMeter id meter).setRelay i relay
      (if edge then .advertiseEdge (.pause id) :: rest else rest))
  | .advertiseEdge edge =>
    if relay.negotiated then
      let relay := relay.record edge
      some ((s.syncEgress relay edge.connectionId).setRelay i relay rest)
    else some (s.setRelay i relay rest)
  | .reconcile id =>
    some (s.setRelay i relay
      (if s.upmeterLatched id then rest else .advertiseEdge (.resume id) :: rest))
  | .due =>
    let (edges, advertiser) := relay.advertiser.due
    some (s.setRelay i { relay with advertiser := advertiser }
      (edges.map (fun edge => .syncEgress edge.connectionId) ++ rest))
  | .syncEgress id => some ((s.syncEgress relay id).setRelay i relay rest)
  | .awaitCreate k =>
    match s.mgr.creates[k]? with
    | some ⟨_, _, _, _, .acked session⟩ =>
      some (s.setRelay i relay (.readConns session.display :: rest))
    | some ⟨_, _, _, _, .returnedErr _⟩ => some (s.setRelay i relay rest)
    | _ => none
  | .awaitResume k =>
    match s.mgr.resumes[k]? with
    | some ⟨_, _, .acked session⟩ => some (s.setRelay i relay (.readConns session.display :: rest))
    | some ⟨_, _, .returnedErr _⟩ => some (s.setRelay i relay rest)
    | _ => none
  | .readConns disp => some (s.setRelay i relay (.resetFlow disp (s.mgr.connsOf disp) :: rest))
  | .resetFlow _ ids => some ((s.resetFlow ids).setRelay i relay rest)
  | .awaitUnregister k id =>
    match s.mgr.unregisters[k]? with
    | some ⟨_, .done⟩ => some (s.setRelay i (relay.forget id) rest)
    | _ => none
  | .sessionDestroy disp =>
    if s.mgr.ownsSession disp relay.client then
      some ({ s with mgr := { s.mgr with connToRelay := s.mgr.connToRelay.remove disp } }.setRelay i
        relay (.callDestroy disp :: rest))
    else some (s.setRelay i relay rest)
  | .callDestroy disp =>
    some ({ s with mgr := { s.mgr with
      destroys := s.mgr.destroys ++ [DestroyCall.mk disp none .cancelGrace] } }.setRelay i relay
        (.awaitDestroy s.mgr.destroys.length :: rest))
  | .awaitDestroy k =>
    match s.mgr.destroys[k]? with
    | some ⟨_, _, .done⟩ => some (s.setRelay i relay rest)
    | _ => none

/-- The operations of a turn. -/
def turn (s : State) (relay : Relay) : RelayEvent → List RelayOp
  | .sessionCreate .. | .sessionAutoCreate .. => [.awaitCreate s.mgr.creates.length]
  | .sessionResume _ => [.awaitResume s.mgr.resumes.length]
  | .sessionDestroy disp => [.sessionDestroy disp]
  | .streamData id len => [.route id len]
  | .flowControl scope action => if relay.negotiated then [.flowControl scope action] else []
  | .congested edge => [.advertiseEdge edge]
  | .disconnected id => [.awaitUnregister s.mgr.unregisters.length id]
  | .tick => if relay.negotiated then relay.advertiser.paused.map .reconcile ++ [.due] else []

/-- The call of the session manager that a turn begins with. -/
def callOf (client : String) : RelayEvent → Option Sessions.Action
  | .sessionCreate disp authName authData => some (.create disp authName authData client)
  | .sessionAutoCreate authName authData => some (.createAuto authName authData client)
  | .sessionResume id => some (.resume id client)
  | .disconnected id => some (.unregister id)
  | _ => none

/-- A task between two turns takes up an event. -/
def take (s : State) (i : Nat) (relay : Relay) (e : RelayEvent) : Option State :=
  if relay.todo = [] ∧ relay.ended = false then
    match callOf relay.client e with
    | some a => (s.mgr.step a).map fun mgr =>
        { s with mgr := mgr }.setRelay i relay (s.turn relay e)
    | none => some (s.setRelay i relay (s.turn relay e))
  else none

/-- The flow state that an application's registration brings with it. -/
def flowsAfter (s : State) : Sessions.Action → Table ConnectionId ConnFlow
  | .appStep i =>
    match s.mgr.apps[i]? with
    | some ⟨id, _, _, _, .inserting⟩ => s.flows.put id ⟨.new s.high s.low, false⟩
    | _ => s.flows
  | _ => s.flows

/-- Only relays make the calls that change the owner of a session. -/
def madeByRelay : Sessions.Action → Bool
  | .create .. | .createAuto .. | .resume .. => true
  | _ => false

def step (s : State) : Action → Option State
  | .connect client negotiated =>
    if client ∈ s.relays.map Relay.client then none
    else some { s with relays := s.relays ++ [⟨client, negotiated, .empty, [], [], false⟩] }
  | .mgr a =>
    if madeByRelay a then none
    else (s.mgr.step a).map fun mgr => { s with mgr := mgr, flows := s.flowsAfter a }
  | .event r e => (s.relays[r]?).bind fun relay => s.take r relay e
  | .relayStep r =>
    (s.relays[r]?).bind fun relay =>
      match relay.todo with
      | op :: rest => s.perform r relay op rest
      | [] => none
  | .relayEnd r =>
    (s.relays[r]?).bind fun relay =>
      if relay.todo = [] ∧ relay.ended = false then
        some { s with relays := s.relays.set r { relay with ended := true } }
      else none
  | .discharge id n => some (s.setMeter id ((s.flowOf id).upmeter.discharge n).2)

/-- A server that has just started. -/
def init (high low : Nat) : State := ⟨.init, .empty, [], high, low⟩

end State

end RemoteX11.Server.Relays
