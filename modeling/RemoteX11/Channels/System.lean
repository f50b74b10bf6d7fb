/-
  The X11 channels of one session: the connection tasks and the relay task of the server, the serve loop
  and the pumps of the client, and the frames between them (`x11_listener.rs`, `relay/connection.rs`;
  `proxy.rs`, `serve/mod.rs`).

  The session stays up and its relay stays attached. Each task is a program counter and each of its
  steps is what it does between two awaits. The two bulk lanes with the wires behind them are the lists
  `down` and `up`; a bounded queue that is full only delays a step, so no capacity is here.

  A sender of an `mpsc` channel is known by who holds it: `connections` and `channels` name the task that
  reads the other end, and a task whose sender is gone reads what is left and then the end.
-/
import RemoteX11.Lib.Run
import RemoteX11.Lib.Table
import RemoteX11.Protocol.Messages
import RemoteX11.Sessions.Manager

namespace RemoteX11.Channels

open RemoteX11.Lib RemoteX11.Protocol RemoteX11.Sessions

/-- `handle_x11_connection`, from the moment it has the ingress of its display. -/
inductive ConnPhase where
  /-- `register_x11_connection` checks the limit -/
  | attached
  /-- insert into `connections` -/
  | inserting
  /-- insert into `display_conns` -/
  | listing
  /-- registered: send `Connected` -/
  | announcing
  /-- in its two legs -/
  | relaying
  /-- a leg has ended: send `Disconnected` -/
  | leaving
  /-- `unregister_x11_connection` -/
  | unregistering
  | ended
  deriving DecidableEq, Repr

structure Conn where
  connectionId : ConnectionId
  phase : ConnPhase
  /-- what `relay_rx` holds -/
  inbox : List Bytes
  deriving DecidableEq, Repr

/-- The pump task of `spawn_local_connection`. -/
inductive PumpPhase where
  | relaying
  /-- a leg has ended: send `ChannelClose` -/
  | closing
  /-- remove the channel from the map -/
  | removing
  | ended
  deriving DecidableEq, Repr

structure Pump where
  connectionId : ConnectionId
  phase : PumpPhase
  /-- what `write_rx` holds -/
  inbox : List Bytes
  deriving DecidableEq, Repr

/-- `X11ConnToRelay`, without the edges of flow control. -/
inductive Event where
  | connected (c : ConnectionId)
  | data (c : ConnectionId) (data : Bytes)
  | disconnected (c : ConnectionId)
  deriving DecidableEq, Repr

/-- A frame on a bulk lane. -/
inductive ChannelFrame where
  | channelOpen (c : ConnectionId)
  | streamData (c : ConnectionId) (data : Bytes)
  | channelClose (c : ConnectionId)
  deriving DecidableEq, Repr

inductive RelayPhase where
  | idle
  /-- the connection is unregistered: send `ChannelClose` -/
  | closing (c : ConnectionId)
  deriving DecidableEq, Repr

inductive ServePhase where
  | idle
  /-- `spawn_local_connection` awaits the local X server -/
  | connecting (c : ConnectionId)
  /-- the pump is spawned and the write end is not in the map yet -/
  | inserting (c : ConnectionId) (pump : Nat)
  deriving DecidableEq, Repr

structure State where
  conns : List Conn
  /-- the task that reads what is sent to a connection -/
  connections : Table ConnectionId Nat
  /-- `display_conns` of the display of the session -/
  displayConns : List ConnectionId
  events : List Event
  relay : RelayPhase
  /-- frames to the client -/
  down : List ChannelFrame
  serve : ServePhase
  /-- `x11_connections` of the client: the pump that reads what is sent to a channel -/
  channels : Table ConnectionId Nat
  pumps : List Pump
  /-- frames to the server -/
  up : List ChannelFrame
  deriving DecidableEq, Repr

inductive Action where
  /-- an application connects; `c` is the id it draws, 32 bits of a counter -/
  | connect (c : ConnectionId)
  | appSends (i : Nat) (data : Bytes)
  /-- the application's socket is closed, read or written without success -/
  | appCloses (i : Nat)
  | connStep (i : Nat)
  | relayEvent
  /-- the relay takes a frame; `kept` is false when the data plane drops its payload -/
  | relayFrame (kept : Bool)
  | serveFrame (kept : Bool)
  /-- `TcpStream::connect` returns -/
  | localConnect (ok : Bool)
  | serveInsert
  | localSends (j : Nat) (data : Bytes)
  /-- the local X server's socket is closed, read or written without success -/
  | localCloses (j : Nat)
  | pumpStep (j : Nat)
  deriving DecidableEq, Repr

/-- The actions that a task takes by itself; the others are taken by the applications and by the local X
    server. -/
def Action.ofTask : Action → Bool
  | .connStep _ | .relayEvent | .relayFrame _ | .serveFrame _ | .localConnect _ | .serveInsert
  | .pumpStep _ => true
  | _ => false

/-- The receiver of the connection's queue exists: `relay_rx` is dropped with the legs. -/
def ConnPhase.receives : ConnPhase → Bool
  | .leaving | .unregistering | .ended => false
  | _ => true

/-- Nothing has happened in the session yet. -/
def State.new : State :=
  ⟨[], .empty, [], [], .idle, [], .idle, .empty, [], []⟩

namespace State

def setConn (s : State) (i : Nat) (conn : Conn) (phase : ConnPhase) : State :=
  { s with conns := s.conns.set i { conn with phase := phase } }

/-- `unregister_x11_connection`. -/
def unregisterX11Connection (s : State) (c : ConnectionId) : State :=
  match s.connections.get c with
  | some _ => { s with
      connections := s.connections.remove c
      displayConns := s.displayConns.filter (· ≠ c) }
  | none => s

def connStep (s : State) (i : Nat) (conn : Conn) : Option State :=
  let c := conn.connectionId
  match conn.phase with
  | .attached =>
    -- past the limit the task returns the error
    if s.displayConns.length ≥ maxX11ConnectionsPerDisplay then some (s.setConn i conn .ended)
    else some (s.setConn i conn .inserting)
  | .inserting => some ({ s with connections := s.connections.put c i }.setConn i conn .listing)
  | .listing =>
    some ({ s with displayConns := s.displayConns.insert c }.setConn i conn .announcing)
  | .announcing => some ({ s with events := s.events ++ [Event.connected c] }.setConn i conn .relaying)
  | .relaying =>
    match conn.inbox with
    | _ :: rest => some { s with conns := s.conns.set i { conn with inbox := rest } }
    | [] =>
      -- `recv` returns `None` once the sender is dropped
      if s.connections.get c = some i then none else some (s.setConn i conn .leaving)
  | .leaving =>
    some ({ s with events := s.events ++ [Event.disconnected c] }.setConn i conn .unregistering)
  | .unregistering => some ((s.unregisterX11Connection c).setConn i conn .ended)
  | .ended => none

/-- `handle_x11_event`. -/
def handleX11Event (s : State) (event : Event) : State :=
  match event with
  | .connected c => { s with down := s.down ++ [.channelOpen c] }
  | .data c data => { s with down := s.down ++ [.streamData c data] }
  | .disconnected c => { s.unregisterX11Connection c with relay := .closing c }

/-- `forward_to_x11`: the payload is sent to the task that is registered, if it still receives. -/
def forwardToX11 (s : State) (c : ConnectionId) (data : Bytes) : State :=
  match s.connections.get c with
  | some i =>
    match s.conns[i]? with
    | some conn =>
      if conn.phase.receives then
        { s with conns := s.conns.set i { conn with inbox := conn.inbox ++ [data] } }
      else s
    | none => s
  | none => s

/-- `handle_inbound_frame`. A `ChannelOpen` or `ChannelClose` of the client is an unexpected frame: it is
    logged and nothing else happens. -/
def handleInboundFrame (s : State) (frame : ChannelFrame) (kept : Bool) : State :=
  match frame with
  | .streamData c data => if kept then s.forwardToX11 c data else s
  | .channelOpen _ => s
  | .channelClose _ => s

/-- `send_data_to_local`: the send fails once the pump task is over, and the entry is pruned. -/
def sendDataToLocal (s : State) (c : ConnectionId) (data : Bytes) : State :=
  match s.channels.get c with
  | some j =>
    match s.pumps[j]? with
    | some pump =>
      if pump.phase = .ended then { s with channels := s.channels.remove c }
      else { s with pumps := s.pumps.set j { pump with inbox := pump.inbox ++ [data] } }
    | none => s
  | none => s

/-- `dispatch_frame`. -/
def dispatchFrame (s : State) (frame : ChannelFrame) (kept : Bool) : State :=
  match frame with
  | .channelOpen c => { s with serve := .connecting c }
  | .streamData c data => if kept then s.sendDataToLocal c data else s
  | .channelClose c => { s with channels := s.channels.remove c }

/-- The write end of the pump's queue exists. -/
def holds (s : State) (j : Nat) (c : ConnectionId) : Bool :=
  s.channels.get c == some j || s.serve == .inserting c j

def setPump (s : State) (j : Nat) (pump : Pump) (phase : PumpPhase) : State :=
  { s with pumps := s.pumps.set j { pump with phase := phase } }

def pumpStep (s : State) (j : Nat) (pump : Pump) : Option State :=
  let c := pump.connectionId
  match pump.phase with
  | .relaying =>
    match pump.inbox with
    | _ :: rest => some { s with pumps := s.pumps.set j { pump with inbox := rest } }
    | [] => if s.holds j c then none else some (s.setPump j pump .closing)
  | .closing => some ({ s with up := s.up ++ [ChannelFrame.channelClose c] }.setPump j pump .removing)
  | .removing => some ({ s with channels := s.channels.remove c }.setPump j pump .ended)
  | .ended => none

def step (s : State) (a : Action) : Option State :=
  match a with
  | .connect c => some { s with conns := s.conns ++ [⟨c, .attached, []⟩] }
  | .appSends i data =>
    match s.conns[i]? with
    | some ⟨c, .relaying, _⟩ => some { s with events := s.events ++ [.data c data] }
    | _ => none
  | .appCloses i =>
    match s.conns[i]? with
    | some ⟨c, .relaying, inbox⟩ => some (s.setConn i ⟨c, .relaying, inbox⟩ .leaving)
    | _ => none
  | .connStep i =>
    match s.conns[i]? with
    | some conn => s.connStep i conn
    | none => none
  | .relayEvent =>
    match s.relay, s.events with
    | .closing c, _ => some { s with down := s.down ++ [.channelClose c], relay := .idle }
    | .idle, event :: rest => some ({ s with events := rest }.handleX11Event event)
    | .idle, [] => none
  | .relayFrame kept =>
    match s.relay, s.up with
    | .idle, frame :: rest => some ({ s with up := rest }.handleInboundFrame frame kept)
    | _, _ => none
  | .serveFrame kept =>
    match s.serve, s.down with
    | .idle, frame :: rest => some ({ s with down := rest }.dispatchFrame frame kept)
    | _, _ => none
  | .localConnect ok =>
    match s.serve with
    | .connecting c =>
      if ok then some { s with
        pumps := s.pumps ++ [⟨c, .relaying, []⟩]
        serve := .inserting c s.pumps.length }
      else some { s with up := s.up ++ [.channelClose c], serve := .idle }
    | _ => none
  | .serveInsert =>
    match s.serve with
    | .inserting c j => some { s with channels := s.channels.put c j, serve := .idle }
    | _ => none
  | .localSends j data =>
    match s.pumps[j]? with
    | some ⟨c, .relaying, _⟩ => some { s with up := s.up ++ [.streamData c data] }
    | _ => none
  | .localCloses j =>
    match s.pumps[j]? with
    | some ⟨c, .relaying, inbox⟩ => some (s.setPump j ⟨c, .relaying, inbox⟩ .closing)
    | _ => none
  | .pumpStep j =>
    match s.pumps[j]? with
    | some pump => s.pumpStep j pump
    | none => none

/-- The X11 channels that the client holds open. -/
def openChannels (s : State) : List ConnectionId := s.channels.entries.map Prod.fst

/-- No frames or events are in flight and no task has a step to take. -/
def Quiet (s : State) : Prop :=
  s.events = [] ∧ s.down = [] ∧ s.up = [] ∧ ∀ a, a.ofTask = true → s.step a = none

end State

end RemoteX11.Channels
