/-
  The per-application tier of the audio hub (`audio/mod.rs`, `audio/per_app.rs`).

  A step is one turn under a mutex, of a relay task or of a capture task, or one event of its
  surroundings: a recorder that ends, a writer that takes a frame or goes away. `detach_connection` looks at
  the channels twice while it holds the hub, and is two steps. The applications are a table, because
  `attach_connection` looks an application up before it adds one. A capture that has left the hub is
  aborted, with no channel left, and is not followed any further.
-/
import RemoteX11.Queue.Lanes
import RemoteX11.Lib.Table

namespace RemoteX11.Audio

open RemoteX11.Lib RemoteX11.Protocol RemoteX11.Queue

/-! ## The real-time lane -/

inductive PrioritySendError where
  | full
  | closed
  deriving DecidableEq, Repr

/-- The real-time lane of a client; `offered` is its history. -/
structure Lane where
  queue : List Frame
  isOpen : Bool
  /-- what was given to `send_priority`, and whether it was accepted -/
  offered : List (Frame × Bool)
  deriving DecidableEq, Repr

/-- There is room for a frame. -/
def Lane.hasRoom (lane : Lane) : Bool := lane.queue.length < priorityLaneCapacity

/-- `send_priority`. -/
def Lane.sendPriority (lane : Lane) (frame : Frame) : Except PrioritySendError Unit × Lane :=
  if !lane.isOpen then (.error .closed, { lane with offered := lane.offered ++ [(frame, false)] })
  else if !lane.hasRoom then (.error .full, { lane with offered := lane.offered ++ [(frame, false)] })
  else (.ok (), { lane with queue := lane.queue ++ [frame], offered := lane.offered ++ [(frame, true)] })

/-- The lanes of all clients. -/
abbrev Lanes := Nat → Lane

def Lanes.send (lanes : Lanes) (l : Nat) (frame : Frame) : Except PrioritySendError Unit × Lanes :=
  let sent := (lanes l).sendPriority frame
  (sent.1, fun k => if k = l then sent.2 else lanes k)

/-! ## Channels -/

/-- `next_connection_id`: the low 32 bits of the counter, zero left out. -/
def nextConnectionId (counter : Nat) : ConnectionId × Nat :=
  if UInt32.ofNat counter ≠ 0 then (⟨UInt32.ofNat counter⟩, counter + 1)
  else (⟨UInt32.ofNat (counter + 1)⟩, counter + 2)

structure Channel where
  audioChannelId : ConnectionId
  appConnectionId : ConnectionId
  /-- the lane of the subscriber -/
  outbound : Nat
  opened : Bool
  shed : Nat
  deriving DecidableEq, Repr

def Channel.openFrame (ch : Channel) : Frame :=
  .json (.channelOpen ⟨ch.audioChannelId, .audio, none, some ch.appConnectionId⟩)

def closeFrame (id : ConnectionId) : Frame := .json (.channelClose ⟨id⟩)

/-- The packet on an opened channel; the last part of the result says that the channel is dead. -/
def shipData (seq : UInt32) (packet : Bytes) (lanes : Lanes) (ch : Channel) : Lanes × Channel × Bool :=
  match lanes.send ch.outbound (.binary (.streamData ⟨ch.audioChannelId, seq, packet⟩)) with
  | (.ok (), lanes) => (lanes, ch, false)
  | (.error .full, lanes) => (lanes, { ch with shed := ch.shed + 1 }, false)
  | (.error .closed, lanes) => (lanes, ch, true)

/-- One turn of the loop of `fan_out`. -/
def ship (seq : UInt32) (packet : Bytes) (lanes : Lanes) (ch : Channel) : Lanes × Channel × Bool :=
  if ch.opened then shipData seq packet lanes ch
  else
    match lanes.send ch.outbound ch.openFrame with
    | (.error _, lanes) => (lanes, ch, true)
    | (.ok (), lanes) => shipData seq packet lanes { ch with opened := true }

def shipAll (seq : UInt32) (packet : Bytes) : List Channel → Lanes → Lanes × List (Channel × Bool)
  | [], lanes => (lanes, [])
  | ch :: rest, lanes =>
    let (lanes, shipped) := ship seq packet lanes ch
    let (lanes, others) := shipAll seq packet rest lanes
    (lanes, shipped :: others)

/-- The channels that are kept: the id of none that is dead. -/
def retained (shipped : List (Channel × Bool)) : List Channel :=
  let dead := (shipped.filter Prod.snd).map fun r => r.1.audioChannelId
  (shipped.map Prod.fst).filter fun ch => !dead.contains ch.audioChannelId

/-- `fan_out`. -/
def fanOut (seq : UInt32) (packet : Bytes) (channels : List Channel) (lanes : Lanes) :
    Lanes × List Channel :=
  let (lanes, shipped) := shipAll seq packet channels lanes
  (lanes, retained shipped)

/-- `remove_channel`: the first channel of the connection. -/
def removeChannel (conn : ConnectionId) (channels : List Channel) (lanes : Lanes) :
    Lanes × List Channel :=
  match channels.find? fun ch => ch.appConnectionId == conn with
  | none => (lanes, channels)
  | some ch =>
    (if ch.opened then (lanes.send ch.outbound (closeFrame ch.audioChannelId)).2 else lanes,
      channels.eraseP fun ch => ch.appConnectionId == conn)

/-! ## The hub -/

/-- The pid of the root process. -/
structure ApplicationId where
  root : Int
  deriving DecidableEq, Repr

/-- Where the capture task is: looking up the application, waiting for its stream, reading from the
    recorder, or over. -/
inductive CaptureTask where
  | starting
  | waiting
  | reading (sent : Nat)
  | ended (outcome : Except String Nat)
  deriving DecidableEq, Repr

/-- The task is still able to produce packets. -/
def CaptureTask.alive : CaptureTask → Bool
  | .ended _ => false
  | _ => true

structure ApplicationCapture where
  channels : List Channel
  task : Option CaptureTask
  deriving DecidableEq, Repr

/-- `start`: nothing is done where there is a task. -/
def ApplicationCapture.start (capture : ApplicationCapture) : ApplicationCapture :=
  if capture.task.isSome then capture else { capture with task := some .starting }

structure PerAppClient where
  clientConnectionId : ConnectionId
  outbound : Nat
  deriving DecidableEq, Repr

structure Hub where
  applications : Table ApplicationId ApplicationCapture
  clients : List PerAppClient
  lanes : Lanes
  /-- `NEXT_CONNECTION_ID` -/
  counter : Nat
  /-- the application that `detach_connection` is at, with the hub locked -/
  detaching : Option ApplicationId

inductive Action where
  /-- `attach_per_app` -/
  | subscribe (client : ConnectionId) (lane : Nat)
  /-- an id goes to something else -/
  | allocate
  /-- the X11 connection `conn` of the application appears at the relay task of the client -/
  | attach (app : ApplicationId) (conn client : ConnectionId)
  /-- it goes away: the channel is removed, -/
  | detach (app : ApplicationId) (conn : ConnectionId)
  /-- and then the application, when that was its last -/
  | finishDetach
  /-- the capture task finds the application, -/
  | resolve (app : ApplicationId)
  /-- its stream, to which it points a recorder, -/
  | found (app : ApplicationId)
  /-- and encodes a packet -/
  | packet (app : ApplicationId) (seq : UInt32) (data : Bytes)
  /-- it ends by itself: no such process, no recorder, no encoder, a failed read, the recorder has ended -/
  | fail (app : ApplicationId) (reason : String)
  /-- another sender on the lane -/
  | flow (lane : Nat) (m : FlowControlMessage)
  /-- the writer takes the next frame -/
  | take (lane : Nat)
  /-- the writer is gone -/
  | close (lane : Nat)
  deriving DecidableEq, Repr

namespace Hub

/-- `client_lane`. -/
def clientLane (s : Hub) (client : ConnectionId) : Option Nat :=
  (s.clients.find? fun c => c.clientConnectionId == client).map PerAppClient.outbound

/-- `attach_connection`. -/
def attachConnection (s : Hub) (app : ApplicationId) (conn : ConnectionId) (lane : Nat) : Hub :=
  let (id, counter) := nextConnectionId s.counter
  let channel : Channel := ⟨id, conn, lane, false, 0⟩
  let capture : ApplicationCapture :=
    match s.applications.get app with
    | some capture => { capture with channels := capture.channels ++ [channel] }
    | none => ApplicationCapture.start ⟨[channel], none⟩
  { s with applications := s.applications.put app capture, counter := counter }

/-- The capture of the application moves on. -/
def move (s : Hub) (app : ApplicationId) (next : CaptureTask → Option CaptureTask) : Option Hub := do
  let capture ← s.applications.get app
  let task ← capture.task
  let task ← next task
  some { s with applications := s.applications.put app { capture with task := some task } }

/-- A packet of the application's capture, encoded and fanned out. -/
def ship (s : Hub) (app : ApplicationId) (seq : UInt32) (data : Bytes) : Option Hub := do
  let capture ← s.applications.get app
  match capture.task with
  | some (.reading sent) =>
    let (lanes, channels) := fanOut seq data capture.channels s.lanes
    some { s with
      applications := s.applications.put app ⟨channels, some (.reading (sent + 1))⟩
      lanes := lanes }
  | _ => none

def step (s : Hub) : Action → Option Hub
  | .subscribe client lane =>
    if s.detaching.isSome then none else some { s with clients := s.clients ++ [⟨client, lane⟩] }
  | .allocate => some { s with counter := (nextConnectionId s.counter).2 }
  | .attach app conn client =>
    if s.detaching.isSome then none
    else
      match s.clientLane client with
      | none => some s
      | some lane => some (s.attachConnection app conn lane)
  | .detach app conn =>
    if s.detaching.isSome then none
    else
      match s.applications.get app with
      | none => some s
      | some capture =>
        let (lanes, channels) := removeChannel conn capture.channels s.lanes
        some { s with
          applications := s.applications.put app { capture with channels := channels }
          lanes := lanes
          detaching := some app }
  | .finishDetach =>
    match s.detaching with
    | none => none
    | some app =>
      let empty := (s.applications.get app).any fun capture => capture.channels.isEmpty
      some { s with
        applications := if empty then s.applications.remove app else s.applications
        detaching := none }
  | .resolve app => s.move app fun task => if task = .starting then some .waiting else none
  | .found app => s.move app fun task => if task = .waiting then some (.reading 0) else none
  | .packet app seq data => s.ship app seq data
  | .fail app reason => s.move app fun task => if task.alive then some (.ended (.error reason)) else none
  | .flow lane m => some { s with lanes := (s.lanes.send lane (.json (.flowControl m))).2 }
  | .take lane =>
    let taken := { s.lanes lane with queue := (s.lanes lane).queue.drop 1 }
    some { s with lanes := fun k => if k = lane then taken else s.lanes k }
  | .close lane =>
    let closed := { s.lanes lane with isOpen := false, queue := [] }
    some { s with lanes := fun k => if k = lane then closed else s.lanes k }

/-- No application and no client yet. -/
def init (lanes : Lanes) : Hub := ⟨.empty, [], lanes, 1, none⟩

end Hub

end RemoteX11.Audio
