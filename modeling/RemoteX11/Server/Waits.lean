/-
  Who waits for whom while a session is destroyed (`destroy_session` of `session/mod.rs`,
  `handle_x11_connection` of `x11_listener.rs`, the event channel of `relay/connection.rs`).

  Under the relays and the session manager (`Relays`, here `base`), a section under the lock of
  `connections` is one step and nothing is said of the channels. Here `destroy_session` keeps the lock
  (`holder`) while it tells one connection after the other to close, and awaits room in each queue. A
  pump has two legs: one reads the application and reports to the relay, one takes commands and writes
  to the application. Both queues hold `channelBuffer` entries, and the two directions of the socket
  hold `sockBuf` bytes each. Every step of the relays happens under the waits of this module
  (`step_base`).

  Of payloads only the lengths are kept. The outbound queue of a relay is not here, and neither are the
  locks that are never held across an await.
-/
import RemoteX11.Server.Relays
import RemoteX11.Flow.Channel

namespace RemoteX11.Server.Waits

open RemoteX11.Lib RemoteX11.Protocol RemoteX11.Sessions
open RemoteX11.Flow (channelBuffer FlowEdge FlowMeter)
open RemoteX11.Server.Relays (Relay RelayOp RelayEvent)

/-! ## The channels -/

inductive X11RelayToConn where
  | data (len : Nat)
  | close
  deriving DecidableEq, Repr

inductive X11ConnToRelay where
  | connected (id : ConnectionId)
  | data (id : ConnectionId) (len : Nat)
  | congested (edge : FlowEdge)
  | disconnected (id : ConnectionId)
  deriving DecidableEq, Repr

/-- The socket of an application. -/
structure Socket where
  /-- the application reads on while a write of its own waits -/
  duplex : Bool
  /-- bytes of the pump that the application has not read -/
  toApp : Nat
  /-- bytes of the application that the pump has not read -/
  fromApp : Nat
  /-- bytes that the write of the application has left -/
  pending : Nat
  deriving DecidableEq, Repr

inductive PumpPhase where
  /-- in `connections`, sending `Connected` -/
  | announcing
  /-- in its two legs -/
  | relaying
  /-- a leg has ended: sending `Disconnected` -/
  | leaving
  | ended
  deriving DecidableEq, Repr

/-- `handle_x11_connection` from its registration on. -/
structure Pump where
  /-- its place among the applications of the session manager -/
  app : Nat
  id : ConnectionId
  /-- the client whose event channel it holds -/
  client : String
  phase : PumpPhase
  /-- the queue behind `relay_rx` -/
  commands : List X11RelayToConn
  /-- the payload in `write_all`: its length and how much of it is left -/
  writing : Option (Nat × Nat)
  /-- the units that the read leg has yet to send -/
  units : List Nat
  socket : Socket
  deriving DecidableEq, Repr

/-- What a relay task has for the pumps: its event channel, and the payload that `deliver_charged` has on
    its way into the queue of a pump. -/
structure Inbox where
  events : List X11ConnToRelay
  /-- the receiver is dropped -/
  gone : Bool
  delivering : Option (Nat × Nat)
  deriving DecidableEq, Repr

/-- The `destroy_session` call that holds the lock of `connections`: the connections it has yet to close,
    and the pump in whose queue it awaits room for `Close`. -/
structure Holder where
  call : Nat
  rest : List ConnectionId
  awaiting : Option Nat
  deriving DecidableEq, Repr

structure State where
  base : Relays.State
  /-- by client -/
  inboxes : Table String Inbox
  /-- the pump whose queue `connections` has -/
  senders : Table ConnectionId Nat
  pumps : List Pump
  holder : Option Holder
  sockBuf : Nat
  deriving DecidableEq, Repr

inductive PumpAction where
  | announce
  /-- `read_buf` returns `n` bytes; `units` is what the reencoder makes of them, or these bytes -/
  | read (n : Nat) (units : List Nat)
  | report
  | takeCommand
  /-- the socket takes `n` bytes of `write_all` -/
  | write (n : Nat)
  /-- `write_all` returns -/
  | finish
  /-- the application goes away -/
  | endLegs
  | leave
  /-- the application calls `write` with `n` bytes -/
  | appWrite (n : Nat)
  /-- the socket takes `n` bytes of this call -/
  | appFlush (n : Nat)
  | appRead (n : Nat)
  deriving DecidableEq, Repr

inductive Action where
  /-- a step of the relays or the session manager that goes through no channel -/
  | base (b : Relays.Action)
  /-- an application gets into `connections` -/
  | register (i : Nat) (duplex : Bool)
  /-- a relay takes up an inbound frame or the tick -/
  | frame (r : Nat) (e : RelayEvent)
  /-- a relay takes an event from its channel -/
  | event (r : Nat)
  /-- the payload of a relay gets into the queue -/
  | deliver (r : Nat)
  /-- `handle_client` returns -/
  | dropEvents (r : Nat)
  /-- a `destroy_session` call gets the lock of `connections` -/
  | lock (d : Nat)
  /-- it takes the next connection out and sends `Close` -/
  | closeNext
  /-- the `Close` it awaits room for gets into the queue -/
  | sendClose
  | unlock
  | pump (p : Nat) (a : PumpAction)
  deriving DecidableEq, Repr

/-- The operation is a section under the lock of `connections`. -/
def locks (relay : Relay) : RelayOp → Bool
  | .flowControl .. | .setPeerPause .. | .route .. | .reconcile _ | .syncEgress _ | .resetFlow .. => true
  | .advertiseEdge _ => relay.negotiated
  | _ => false

/-! ## Pumps -/

namespace Pump

def new (app : Nat) (id : ConnectionId) (client : String) (duplex : Bool) : Pump where
  app := app
  id := id
  client := client
  phase := .announcing
  commands := []
  writing := none
  units := []
  socket := ⟨duplex, 0, 0, 0⟩

/-- `relay_rx` is dropped with the legs: a `send` returns at once. -/
def closed (pump : Pump) : Bool :=
  match pump.phase with
  | .announcing | .relaying => false
  | .leaving | .ended => true

/-- A `send` into its queue has to wait. -/
def full (pump : Pump) : Bool := !pump.closed && channelBuffer ≤ pump.commands.length

/-- A command is sent, or the sender finds the queue closed. -/
def push (pump : Pump) (cmd : X11RelayToConn) : Pump :=
  if pump.closed then pump else { pump with commands := pump.commands ++ [cmd] }

/-- The legs and their halves of the socket are dropped. -/
def dropLegs (pump : Pump) : Pump :=
  { pump with phase := .leaving, commands := [], writing := none, units := [] }

end Pump

namespace State

def inbox (s : State) (client : String) : Inbox := (s.inboxes.get client).getD ⟨[], false, none⟩

def setInbox (s : State) (client : String) (inbox : Inbox) : State :=
  { s with inboxes := s.inboxes.put client inbox }

def setPump (s : State) (p : Nat) (pump : Pump) : State := { s with pumps := s.pumps.set p pump }

/-- `send` into an event channel has to wait. -/
def eventsFull (s : State) (client : String) : Bool :=
  !(s.inbox client).gone && channelBuffer ≤ (s.inbox client).events.length

/-- An event is sent, or the sender finds the relay gone. -/
def pushEvent (s : State) (client : String) (e : X11ConnToRelay) : State :=
  if (s.inbox client).gone then s
  else s.setInbox client { s.inbox client with events := (s.inbox client).events ++ [e] }

/-- The call of `handle_x11_connection` is over; `unregister_x11_connection` is its last one. -/
def endPump (s : State) (p : Nat) (pump : Pump) : Option State :=
  (s.base.step (.mgr (.appEnd pump.app))).map fun base =>
    { s with base := base }.setPump p { pump with phase := .ended }

/-- The payload is written: the gauge is discharged, and an edge is reported with a `try_send`. -/
def finishWrite (s : State) (p : Nat) (pump : Pump) (len : Nat) : Option State :=
  (s.base.step (.discharge pump.id len)).map fun base =>
    let edge := ((s.base.flowOf pump.id).upmeter.discharge len).1
    let s' := { s with base := base }.setPump p { pump with writing := none }
    if edge && !s.eventsFull pump.client then s'.pushEvent pump.client (.congested (.resume pump.id))
    else s'

def pumpStep (s : State) (p : Nat) (pump : Pump) : PumpAction → Option State
  | .announce =>
    if pump.phase = .announcing ∧ (s.base.mgr.apps[pump.app]?).map App.phase = some .registered ∧
        s.eventsFull pump.client = false then
      if (s.inbox pump.client).gone then s.endPump p pump.dropLegs
      else some ((s.pushEvent pump.client (.connected pump.id)).setPump p { pump with phase := .relaying })
    else none
  | .read n units =>
    -- a closed gate defers the next read only
    if pump.phase = .relaying ∧ pump.units = [] ∧ s.base.gated pump.id = false ∧ 0 < n ∧
        n ≤ pump.socket.fromApp then
      some (s.setPump p { pump with
        units := units
        socket := { pump.socket with fromApp := pump.socket.fromApp - n } })
    else none
  | .report =>
    match pump.phase, pump.units with
    | .relaying, len :: units =>
      if s.eventsFull pump.client then none
      else if (s.inbox pump.client).gone then some (s.setPump p pump.dropLegs)
      else some ((s.pushEvent pump.client (.data pump.id len)).setPump p { pump with units := units })
    | _, _ => none
  | .takeCommand =>
    match pump.phase, pump.writing, pump.commands with
    | .relaying, none, .data len :: commands =>
      some (s.setPump p { pump with commands := commands, writing := some (len, len) })
    | .relaying, none, .close :: _ => some (s.setPump p pump.dropLegs)
    | _, _, _ => none
  | .write n =>
    match pump.phase, pump.writing with
    | .relaying, some (len, left) =>
      if 0 < n ∧ n ≤ left ∧ pump.socket.toApp + n ≤ s.sockBuf then
        some (s.setPump p { pump with
          writing := some (len, left - n)
          socket := { pump.socket with toApp := pump.socket.toApp + n } })
      else none
    | _, _ => none
  | .finish =>
    match pump.phase, pump.writing with
    | .relaying, some (len, 0) => s.finishWrite p pump len
    | _, _ => none
  | .endLegs =>
    match pump.phase with
    | .relaying => some (s.setPump p pump.dropLegs)
    | _ => none
  | .leave =>
    if pump.phase = .leaving ∧ s.eventsFull pump.client = false then
      (s.pushEvent pump.client (.disconnected pump.id)).endPump p pump
    else none
  | .appWrite n =>
    if pump.phase = .relaying ∧ pump.socket.pending = 0 then
      some (s.setPump p { pump with socket := { pump.socket with pending := n } })
    else none
  | .appFlush n =>
    if pump.phase = .relaying ∧ 0 < n ∧ n ≤ pump.socket.pending ∧
        pump.socket.fromApp + n ≤ s.sockBuf then
      some (s.setPump p { pump with socket := { pump.socket with
        pending := pump.socket.pending - n
        fromApp := pump.socket.fromApp + n } })
    else none
  | .appRead n =>
    if pump.phase = .relaying ∧ (pump.socket.duplex = true ∨ pump.socket.pending = 0) ∧ 0 < n ∧
        n ≤ pump.socket.toApp then
      some (s.setPump p { pump with socket := { pump.socket with toApp := pump.socket.toApp - n } })
    else none

/-! ## Steps of the relays and the session manager -/

/-- The step waits for no lock that is held, and is not one that this module gives its place. -/
def mayTake (s : State) : Relays.Action → Bool
  | .connect .. => true
  | .mgr (.appStep i) => (s.base.mgr.apps[i]?).map App.phase ≠ some .inserting
  | .mgr (.appEnd i) => (s.base.mgr.apps[i]?).map App.phase ≠ some .registered
  | .mgr (.destroyStep d) =>
    match (s.base.mgr.destroys[d]?).map DestroyCall.phase with
    | some (.closing _) => false
    | _ => true
  | .mgr (.unregisterStep k) =>
    (s.base.mgr.unregisters[k]?).map UnregisterCall.phase ≠ some .removing || s.holder.isNone
  | .mgr (.unregister _) | .mgr (.unregisterRelay _) => false
  | .mgr _ => true
  | .relayStep r =>
    match s.base.relays[r]? with
    | some relay => relay.todo.head?.all fun op => !locks relay op || s.holder.isNone
    | none => false
  | .relayEnd r =>
    match s.base.relays[r]? with
    | some relay => (s.inbox relay.client).delivering.isNone
    | none => false
  | .event .. | .discharge .. => false

/-- `unregister_x11_connection` takes the sender out. -/
def sendersAfter (s : State) : Relays.Action → Table ConnectionId Nat
  | .mgr (.unregisterStep k) =>
    match s.base.mgr.unregisters[k]? with
    | some ⟨id, .removing⟩ => s.senders.remove id
    | _ => s.senders
  | _ => s.senders

/-- `route_to_x11` clones the sender for the delivery. -/
def inboxesAfter (s : State) : Relays.Action → Table String Inbox
  | .relayStep r =>
    match s.base.relays[r]? with
    | some relay =>
      match relay.todo with
      | .route id len :: _ =>
        if s.base.mgr.ownsConnection id relay.client then
          s.inboxes.put relay.client
            { s.inbox relay.client with delivering := (s.senders.get id).map (·, len) }
        else s.inboxes
      | _ => s.inboxes
    | none => s.inboxes
  | _ => s.inboxes

def baseStep (s : State) (b : Relays.Action) : Option State :=
  if s.mayTake b then
    (s.base.step b).map fun base =>
      { s with base := base, senders := s.sendersAfter b, inboxes := s.inboxesAfter b }
  else none

/-! ## Relays -/

/-- The relay is between two turns and has nothing to deliver. -/
def ready (s : State) (relay : Relay) : Bool :=
  relay.todo = [] ∧ relay.ended = false ∧ (s.inbox relay.client).delivering = none

def fromPump : RelayEvent → Bool
  | .congested _ | .disconnected _ => true
  | _ => false

def frame (s : State) (r : Nat) (relay : Relay) (e : RelayEvent) : Option State :=
  if s.ready relay ∧ fromPump e = false then
    (s.base.step (.event r e)).map fun base => { s with base := base }
  else none

def event (s : State) (r : Nat) (relay : Relay) : Option State :=
  if s.ready relay then
    match (s.inbox relay.client).events with
    | [] => none
    | e :: events =>
      let s' := s.setInbox relay.client { s.inbox relay.client with events := events }
      match e with
      | .connected _ => some s'
      | .data .. => some s'
      | .congested edge =>
        (s.base.step (.event r (.congested edge))).map fun base => { s' with base := base }
      | .disconnected id =>
        (s.base.step (.event r (.disconnected id))).map fun base => { s' with base := base }
  else none

/-- `deliver_charged`, once the gauge is charged and an edge advertised. -/
def deliver (s : State) (relay : Relay) : Option State :=
  if relay.todo = [] then
    match (s.inbox relay.client).delivering with
    | some (p, len) =>
      (s.pumps[p]?).bind fun pump =>
        let s' := s.setInbox relay.client { s.inbox relay.client with delivering := none }
        if pump.full then none
        else if pump.closed then
          -- a gone channel retracts the charge
          (s.base.step (.discharge pump.id len)).map fun base => { s' with base := base }
        else some (s'.setPump p (pump.push (.data len)))
    | none => none
  else none

/-! ## `destroy_session` -/

def lock (s : State) (d : Nat) : Option State :=
  match s.base.mgr.destroys[d]?, s.holder with
  | some ⟨_, _, .closing ids⟩, none =>
    if s.base.mgr.connectionsFree then some { s with holder := some ⟨d, ids, none⟩ } else none
  | _, _ => none

/-- The holder sends `Close` to a pump, or waits until it can. -/
def sendCloseTo (s : State) (d : Nat) (rest : List ConnectionId) (p : Nat) (pump : Pump) : State :=
  if pump.full then { s with holder := some ⟨d, rest, some p⟩ }
  else { s with holder := some ⟨d, rest, none⟩ }.setPump p (pump.push .close)

def closeNext (s : State) : Option State :=
  match s.holder with
  | some ⟨d, id :: rest, none⟩ =>
    match s.senders.get id with
    | some p =>
      (s.pumps[p]?).map fun pump =>
        { s with senders := s.senders.remove id }.sendCloseTo d rest p pump
    | none => some { s with holder := some ⟨d, rest, none⟩ }
  | _ => none

def sendClose (s : State) : Option State :=
  match s.holder with
  | some ⟨d, rest, some p⟩ =>
    (s.pumps[p]?).bind fun pump =>
      if pump.full then none else some (s.sendCloseTo d rest p pump)
  | _ => none

def unlock (s : State) : Option State :=
  match s.holder with
  | some ⟨d, [], none⟩ =>
    (s.base.step (.mgr (.destroyStep d))).map fun base => { s with base := base, holder := none }
  | _ => none

def register (s : State) (i : Nat) (duplex : Bool) : Option State :=
  match s.base.mgr.apps[i]?, s.holder with
  | some ⟨id, _, _, some client, .inserting⟩, none =>
    (s.base.step (.mgr (.appStep i))).map fun base =>
      { s with
        base := base
        senders := s.senders.put id s.pumps.length
        pumps := s.pumps ++ [.new i id client duplex] }
  | _, _ => none

def step (s : State) : Action → Option State
  | .base b => s.baseStep b
  | .register i duplex => s.register i duplex
  | .frame r e => (s.base.relays[r]?).bind fun relay => s.frame r relay e
  | .event r => (s.base.relays[r]?).bind fun relay => s.event r relay
  | .deliver r => (s.base.relays[r]?).bind fun relay => s.deliver relay
  | .dropEvents r =>
    (s.base.relays[r]?).bind fun relay =>
      if relay.ended then
        some (s.setInbox relay.client { s.inbox relay.client with events := [], gone := true })
      else none
  | .lock d => s.lock d
  | .closeNext => s.closeNext
  | .sendClose => s.sendClose
  | .unlock => s.unlock
  | .pump p a => (s.pumps[p]?).bind fun pump => s.pumpStep p pump a

/-- A server that has just started. -/
def init (high low sockBuf : Nat) : State where
  base := .init high low
  inboxes := .empty
  senders := .empty
  pumps := []
  holder := none
  sockBuf := sockBuf

end State

end RemoteX11.Server.Waits
