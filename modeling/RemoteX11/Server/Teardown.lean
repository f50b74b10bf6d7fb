/-
  The end of a client connection: who still holds its outbound sender, and whether `release_session`
  is reached (`relay/connection.rs`, `handle_client` and `send_session_ack`; `session/mod.rs`;
  `x11_listener.rs`; `queue.rs`, `recv_any`; the audio hub).

  After `relay_loop` has returned, `handle_client` aborts the heartbeat, drops its own sender, waits for
  the drain task and only then calls `release_session`. The drain task ends when a write fails or when
  every sender is gone, and a session ack has put clones of the sender into the display registry, into
  every application pump that picked up the display's ingress, and into the audio hub.

  The state is what surrounds one connection, whose transport id is `me`; other connections appear as
  the transport ids in the registry. A `destroy_session` call goes section by section (`DestroyParts`),
  with room awaited for every `Close`, and applications may attach and register between any two of its
  sections. Which displays a client owns is not here, and neither are the locks: a task waits here for
  room in a queue and for the other side of a socket only, so there are more interleavings than the
  server has. A write to an application that does not read, or to a client that does not read and keeps
  its connection, need never return.

  `release_reached`: the clones are all dropped and the release is reached when no audio was negotiated
  and the displays were given up in order (`Orderly`).
-/
import RemoteX11.Data.Chain
import RemoteX11.Flow.Channel
import RemoteX11.Lib.Assoc
import RemoteX11.Lib.Calls
import RemoteX11.Lib.Run
import RemoteX11.Sessions.Manager

namespace RemoteX11.Server.Teardown

open RemoteX11.Lib RemoteX11.Protocol RemoteX11.Data
open RemoteX11.Flow (channelBuffer)
open RemoteX11.Sessions (DestroyParts DestroyPhase maxX11ConnectionsPerDisplay)

/-! ## The model -/

/-- Where `handle_client` stands. -/
inductive Task where
  | running
  /-- in `relay_loop`: the handler of `SessionDestroy` awaits its `destroy_session` call -/
  | destroying (call : Nat)
  /-- `relay_loop` has returned -/
  | returned
  | heartbeatAborted
  /-- its own sender is dropped, it awaits the drain task -/
  | awaitingDrain
  /-- the drain task has ended -/
  | drained
  /-- `release_session` was called -/
  | released
  deriving DecidableEq, Repr

/-- `handle_client` still has its own sender. -/
def Task.ownsSender : Task → Bool
  | .running => true
  | .destroying _ => true
  | .returned => true
  | .heartbeatAborted => true
  | _ => false

/-- `handle_client` is in `relay_loop`. -/
def Task.inLoop : Task → Bool
  | .running => true
  | .destroying _ => true
  | _ => false

/-- The heartbeat task, which holds a clone until the runtime drops it. -/
inductive Heartbeat where
  | alive
  | aborted
  | gone
  deriving DecidableEq, Repr

inductive X11RelayToConn where
  | data (bytes : Bytes)
  | close
  deriving DecidableEq, Repr

inductive PumpPhase where
  /-- accepted, polling for the ingress of its display -/
  | accepted
  /-- has the ingress; `register_x11_connection` checks the limit next -/
  | attached
  /-- within the limit: insert into `connections` -/
  | inserting
  /-- insert into `display_conns` -/
  | listing
  /-- registered, sending `Connected` -/
  | announcing
  /-- in its two legs -/
  | relaying
  /-- the legs are over -/
  | ended
  /-- it returned before it was registered -/
  | refused
  deriving DecidableEq, Repr

/-- `connections` has its command channel. -/
def PumpPhase.entered : PumpPhase → Bool
  | .listing => true
  | .announcing => true
  | .relaying => true
  | .ended => true
  | _ => false

/-- `handle_x11_connection`. -/
structure AppPump where
  id : ConnectionId
  display : DisplayNumber
  /-- the application reads what is written to it -/
  reads : Bool
  /-- the connection whose sender it holds -/
  relay : Option String
  phase : PumpPhase
  commands : List X11RelayToConn
  /-- a payload is in `write_all` -/
  writing : Bool
  deriving DecidableEq, Repr

/-- An entry of `connections`: the pump that `sender` leads to. -/
structure ConnState where
  display : DisplayNumber
  sender : Nat
  deriving DecidableEq, Repr

structure DestroyCall where
  display : DisplayNumber
  phase : DestroyPhase
  deriving DecidableEq, Repr

structure State where
  task : Task
  heartbeat : Heartbeat
  connToRelay : List (DisplayNumber × String)
  connections : List (ConnectionId × ConnState)
  displayConns : List (DisplayNumber × List ConnectionId)
  pumps : List AppPump
  destroys : List DestroyCall
  /-- the audio hub holds a clone -/
  audio : Bool
  /-- events in the connection's `x11_events` channel -/
  events : Nat
  /-- frames in the outbound queue -/
  frames : Nat
  /-- the drain task has ended -/
  drainDone : Bool
  /-- the client has stopped to read, and its connection stays up -/
  stalled : Bool
  deriving DecidableEq, Repr

/-- The steps of an application pump. -/
inductive PumpAction where
  /-- it finds the ingress of its display -/
  | attach
  /-- it has waited for the ingress too long -/
  | giveUp
  /-- the next section of `register_x11_connection` -/
  | register
  /-- its `Connected` gets into the event channel -/
  | announce
  /-- a data event gets into the event channel -/
  | report
  /-- the relay of its event channel is gone -/
  | relayGone
  /-- a payload is queued for it -/
  | deliver (bytes : Bytes)
  /-- it takes its next command -/
  | takeCommand
  /-- `write_all` returns, since the application reads -/
  | finishWrite
  /-- `write_all` returns, since the socket has room for the payload -/
  | buffered
  /-- its application goes away -/
  | closeApp
  /-- `unregister_x11_connection`, by itself or by the relay it reported to -/
  | unregister
  deriving DecidableEq, Repr

inductive Action where
  /-- a session ack of this connection -/
  | ack (disp : DisplayNumber)
  /-- a session ack of another connection -/
  | takeOver (disp : DisplayNumber) (client : String)
  /-- a `SessionDestroy` of this connection -/
  | sessionDestroy (disp : DisplayNumber)
  /-- its `destroy_session` call has returned -/
  | destroyed
  /-- a `SessionDestroy` of another connection, before it calls `destroy_session` -/
  | unregisterRelay (disp : DisplayNumber)
  /-- `destroy_session` is called by another connection, a grace task or the shutdown -/
  | destroy (disp : DisplayNumber)
  /-- the next section of a `destroy_session` call -/
  | destroyStep (d : Nat)
  /-- an application connects -/
  | accept (disp : DisplayNumber) (id : ConnectionId) (reads : Bool)
  | pump (p : Nat) (a : PumpAction)
  /-- the relay takes an event -/
  | handleEvent
  /-- a holder of a clone queues a frame -/
  | enqueue
  /-- the client stops to read -/
  | stall
  | leave
  | abortHeartbeat
  | cancelHeartbeat
  | dropSender
  /-- the drain task writes a frame -/
  | writeFrame
  /-- a write of the drain task fails -/
  | failDrain
  /-- the drain task finds the queue empty and every sender gone -/
  | finishDrain
  | joinDrain
  | release
  /-- the audio hub finds the lane closed -/
  | sweep
  deriving DecidableEq, Repr

/-- The steps the tasks of the server take by themselves, whatever clients and applications do. -/
def Action.pending : Action → Bool
  | .destroyed => true
  | .destroyStep _ => true
  | .pump _ .attach => true
  | .pump _ .giveUp => true
  | .pump _ .register => true
  | .pump _ .announce => true
  | .pump _ .relayGone => true
  | .pump _ .takeCommand => true
  | .pump _ .finishWrite => true
  | .pump _ .unregister => true
  | .abortHeartbeat => true
  | .cancelHeartbeat => true
  | .dropSender => true
  | .writeFrame => true
  | .failDrain => true
  | .finishDrain => true
  | .joinDrain => true
  | .release => true
  | .sweep => true
  | _ => false

namespace AppPump

/-- The legs have ended and the clone is dropped with them. -/
def finished (p : AppPump) : AppPump :=
  { p with relay := none, phase := .ended, commands := [], writing := false }

/-- It returns before it is registered. -/
def dismissed (p : AppPump) : AppPump := { p with relay := none, phase := .refused, commands := [] }

/-- A `send` into its queue has to wait. -/
def full (p : AppPump) : Bool := p.phase != .ended && channelBuffer ≤ p.commands.length

/-- A command is sent, or the sender finds the queue closed. -/
def push (p : AppPump) (cmd : X11RelayToConn) : AppPump :=
  if p.phase = .ended then p else { p with commands := p.commands ++ [cmd] }

/-- No `Close` is on the way to it. -/
def Open (p : AppPump) : Prop := X11RelayToConn.close ∉ p.commands

instance (p : AppPump) : Decidable p.Open := inferInstanceAs (Decidable (¬_))

end AppPump

namespace State

/-- Someone has a clone of the connection's sender. -/
def held (me : String) (s : State) : Bool :=
  s.task.ownsSender || s.heartbeat != .gone || s.connToRelay.any (fun e => e.2 = me) ||
    s.pumps.any (fun p => p.relay = some me) || s.audio

def setPump (s : State) (p : Nat) (pump : AppPump) : State :=
  { s with pumps := s.pumps.set p pump }

/-- The event channel that the pump reports to has room; of the channels of other connections nothing
    is known here. -/
def hasRoom (me : String) (s : State) (pump : AppPump) : Bool :=
  pump.relay != some me || s.events < channelBuffer

/-- One more event, when the pump reports to this connection. -/
def reported (me : String) (s : State) (pump : AppPump) : State :=
  if pump.relay = some me then { s with events := s.events + 1 } else s

def connsOf (s : State) (disp : DisplayNumber) : List ConnectionId :=
  (Assoc.get s.displayConns disp).getD []

/-- The command channel of the pump is in `connections`. -/
def reaches (s : State) (p : Nat) (pump : AppPump) : Bool :=
  (Assoc.get s.connections pump.id).any fun conn => conn.sender = p

/-- `unregister_x11_connection`. -/
def unregister (s : State) (id : ConnectionId) : State :=
  match Assoc.get s.connections id with
  | some conn => { s with
      connections := Assoc.remove s.connections id
      displayConns := Assoc.put s.displayConns conn.display
        ((s.connsOf conn.display).filter (· ≠ id)) }
  | none => s

/-- A section of `register_x11_connection`. -/
def registerStep (s : State) (p : Nat) (pump : AppPump) : Option State :=
  match pump.phase with
  | .attached =>
    if maxX11ConnectionsPerDisplay ≤ (s.connsOf pump.display).length then
      some (s.setPump p pump.dismissed)
    else some (s.setPump p { pump with phase := .inserting })
  | .inserting =>
    some ({ s with connections := Assoc.put s.connections pump.id ⟨pump.display, p⟩ }.setPump p
      { pump with phase := .listing })
  | .listing =>
    some ({ s with
      displayConns := Assoc.put s.displayConns pump.display
        ((s.connsOf pump.display).insert pump.id) }.setPump p { pump with phase := .announcing })
  | _ => none

def pumpStep (me : String) (s : State) (p : Nat) (pump : AppPump) : PumpAction → Option State
  | .attach =>
    match pump.phase, Assoc.get s.connToRelay pump.display with
    | .accepted, some relay =>
      some (s.setPump p { pump with relay := some relay, phase := .attached })
    | _, _ => none
  | .giveUp => if pump.phase = .accepted then some (s.setPump p pump.dismissed) else none
  | .register => s.registerStep p pump
  | .announce =>
    if pump.phase = .announcing ∧ s.hasRoom me pump = true then
      some ((s.reported me pump).setPump p { pump with phase := .relaying })
    else none
  | .report =>
    if pump.phase = .relaying ∧ s.hasRoom me pump = true then some (s.reported me pump) else none
  | .relayGone =>
    -- the event channel of this connection lives as long as `handle_client`
    if (pump.phase = .announcing ∨ pump.phase = .relaying) ∧
        (pump.relay = some me → s.task = .released) then
      some (s.setPump p pump.finished)
    else none
  | .deliver bytes =>
    if s.reaches p pump = true ∧ pump.full = false then some (s.setPump p (pump.push (.data bytes)))
    else none
  | .takeCommand =>
    match pump.phase, pump.writing, pump.commands with
    | .relaying, false, .data _ :: rest =>
      some (s.setPump p { pump with commands := rest, writing := true })
    | .relaying, false, .close :: _ => some (s.setPump p pump.finished)
    | _, _, _ => none
  | .finishWrite =>
    if pump.writing = true ∧ pump.reads = true then
      some (s.setPump p { pump with writing := false })
    else none
  | .buffered => if pump.writing = true then some (s.setPump p { pump with writing := false }) else none
  | .closeApp => if pump.phase = .relaying then some (s.setPump p pump.finished) else none
  | .unregister => if pump.phase = .ended then some (s.unregister pump.id) else none

/-- `Close` to one of the connections that were taken; the entry goes before the send, under one lock. -/
def sendClose (s : State) (id : ConnectionId) : Option State :=
  match Assoc.get s.connections id with
  | some conn =>
    let s' := { s with connections := Assoc.remove s.connections id }
    match s.pumps[conn.sender]? with
    | some pump => if pump.full then none else some (s'.setPump conn.sender (pump.push .close))
    | none => some s'
  | none => some s

/-- What `destroy_session` does here: the grace tasks, the listeners, the xauth file and the sessions
    are not part of the state. -/
def destroyParts (disp : DisplayNumber) : DestroyParts State where
  cancelGrace s := s
  unbindDisplay s := s
  takeConns s := (Assoc.get s.displayConns disp,
    { s with displayConns := Assoc.remove s.displayConns disp })
  close ids s :=
    match ids with
    | id :: rest => (s.sendClose id).map fun s => (rest, s)
    | [] => some ([], s)
  xauthRemove s := s
  removeRelay s := { s with connToRelay := Assoc.remove s.connToRelay disp }
  removeSession s := s

def destroyStep (s : State) (d : Nat) (call : DestroyCall) : Option State :=
  ((destroyParts call.display).next s call.phase).map fun (phase, t) =>
    { t with destroys := t.destroys.set d { call with phase := phase } }

def step (me : String) (features : Features) (s : State) : Action → Option State
  | .ack disp =>
    -- `register_x11_relay`, the audio attachment and the `SessionAck`
    if s.task = .running then
      some { s with
        connToRelay := Assoc.put s.connToRelay disp me
        audio := s.audio || features.supports .audioForward
        frames := if s.drainDone then s.frames else s.frames + 1 }
    else none
  | .takeOver disp client =>
    if client = me then none
    else some { s with connToRelay := Assoc.put s.connToRelay disp client }
  | .sessionDestroy disp =>
    if s.task = .running then
      some { s with
        task := .destroying s.destroys.length
        connToRelay := Assoc.remove s.connToRelay disp
        destroys := s.destroys ++ [⟨disp, .cancelGrace⟩] }
    else none
  | .destroyed =>
    match s.task with
    | .destroying d =>
      if (s.destroys[d]?).any fun call => call.phase = .done then some { s with task := .running }
      else none
    | _ => none
  | .unregisterRelay disp => some { s with connToRelay := Assoc.remove s.connToRelay disp }
  | .destroy disp => some { s with destroys := s.destroys ++ [⟨disp, .cancelGrace⟩] }
  | .destroyStep d =>
    match s.destroys[d]? with
    | some call => s.destroyStep d call
    | none => none
  | .accept disp id reads =>
    some { s with pumps := s.pumps ++ [⟨id, disp, reads, none, .accepted, [], false⟩] }
  | .pump p a =>
    match s.pumps[p]? with
    | some pump => s.pumpStep me p pump a
    | none => none
  | .handleEvent =>
    if s.task = .running ∧ 0 < s.events then some { s with events := s.events - 1 } else none
  | .enqueue =>
    if s.held me = true ∧ s.drainDone = false then some { s with frames := s.frames + 1 } else none
  | .stall => some { s with stalled := true }
  | .leave => if s.task = .running then some { s with task := .returned } else none
  | .abortHeartbeat =>
    if s.task = .returned then
      some { s with
        task := .heartbeatAborted
        heartbeat := if s.heartbeat = .gone then .gone else .aborted }
    else none
  | .cancelHeartbeat =>
    -- a heartbeat that is not aborted ends when its send fails
    if s.heartbeat = .aborted ∨ s.heartbeat = .alive ∧ s.drainDone = true then
      some { s with heartbeat := .gone }
    else none
  | .dropSender =>
    if s.task = .heartbeatAborted then some { s with task := .awaitingDrain } else none
  | .writeFrame =>
    if s.drainDone = false ∧ s.stalled = false ∧ 0 < s.frames then
      some { s with frames := s.frames - 1 }
    else none
  | .failDrain =>
    if s.drainDone = false ∧ s.stalled = false ∧ 0 < s.frames then
      some { s with drainDone := true, frames := 0 }
    else none
  | .finishDrain =>
    if s.drainDone = false ∧ s.frames = 0 ∧ s.held me = false then some { s with drainDone := true }
    else none
  | .joinDrain =>
    if s.task = .awaitingDrain ∧ s.drainDone = true then some { s with task := .drained } else none
  | .release => if s.task = .drained then some { s with task := .released } else none
  | .sweep =>
    if s.audio = true ∧ s.drainDone = true then some { s with audio := false } else none

/-- A connection that has just been accepted. -/
def init : State where
  task := .running
  heartbeat := .alive
  connToRelay := []
  connections := []
  displayConns := []
  pumps := []
  destroys := []
  audio := false
  events := 0
  frames := 0
  drainDone := false
  stalled := false

/-- **The property.** Once `handle_client` has dropped its own sender, steps that are pending in the
    server drop every clone that is left and reach `release_session`. -/
def Settles (me : String) (features : Features) (s : State) : Prop :=
  s.task = .awaitingDrain → ∃ bs u, (∀ b ∈ bs, b.pending = true) ∧
    run (step me features) s bs = some u ∧ u.held me = false ∧ u.task = .released

/-- Every application that holds the connection's sender for the display has been told to close. -/
def ToldToClose (me : String) (s : State) (disp : DisplayNumber) : Prop :=
  ∀ p ∈ s.pumps, p.relay = some me → p.display = disp → ¬p.Open

instance (me : String) (s : State) (disp : DisplayNumber) : Decidable (s.ToldToClose me disp) :=
  inferInstanceAs (Decidable (∀ p ∈ s.pumps, p.relay = some me → p.display = disp → ¬p.Open))

/-- The connection that a `destroy_session` call closes next. -/
def closesNext : DestroyPhase → Option ConnectionId
  | .closing (id :: _) => some id
  | _ => none

/-- A section of `destroy_session` that is in order: `Close` goes to an application of the connection only
    when it is in its legs, and the display leaves the registry only when all of them were told. -/
def DestroysOrderly (me : String) (s : State) (call : DestroyCall) : Prop :=
  (∀ id ∈ closesNext call.phase, ∀ conn ∈ Assoc.get s.connections id,
    ∀ pump ∈ s.pumps[conn.sender]?, pump.relay = some me → pump.phase = .relaying) ∧
  (call.phase = .removeRelay → s.ToldToClose me call.display)

instance (me : String) (s : State) (call : DestroyCall) : Decidable (s.DestroysOrderly me call) :=
  inferInstanceAs (Decidable ((∀ id ∈ closesNext call.phase, ∀ conn ∈ Assoc.get s.connections id,
    ∀ pump ∈ s.pumps[conn.sender]?, pump.relay = some me → pump.phase = .relaying) ∧
  (call.phase = .removeRelay → s.ToldToClose me call.display)))

/-- The displays are given up in order: no audio was negotiated; when another connection takes a display
    over or unregisters it, the applications that hold the connection's sender for it have been told to
    close; every `destroy_session` goes as `DestroysOrderly` says; and `relay_loop` returns only when the
    registry has no display of the connection any more. Every application that picks up the connection's
    ingress reads what is written to it, and so does the client as long as its connection is up. -/
def Orderly (me : String) (features : Features) (s : State) : Action → Prop
  | .ack _ => features.supports .audioForward = false
  | .takeOver disp _ => s.ToldToClose me disp
  | .unregisterRelay disp => s.ToldToClose me disp
  | .destroyStep d => ∀ call ∈ s.destroys[d]?, s.DestroysOrderly me call
  | .pump p .attach => ∀ pump ∈ s.pumps[p]?,
    Assoc.get s.connToRelay pump.display = some me → pump.reads = true
  | .stall => False
  | .leave => ∀ e ∈ s.connToRelay, e.2 ≠ me
  | _ => True

instance (me : String) (features : Features) (s : State) (a : Action) :
    Decidable (s.Orderly me features a) :=
  match a with
  | .ack _ => inferInstanceAs (Decidable (_ = _))
  | .takeOver disp _ => inferInstanceAs (Decidable (s.ToldToClose me disp))
  | .unregisterRelay disp => inferInstanceAs (Decidable (s.ToldToClose me disp))
  | .destroyStep d => inferInstanceAs (Decidable (∀ call ∈ s.destroys[d]?, s.DestroysOrderly me call))
  | .pump p .attach => inferInstanceAs (Decidable (∀ pump ∈ s.pumps[p]?,
      Assoc.get s.connToRelay pump.display = some me → pump.reads = true))
  | .stall => isFalse id
  | .leave => inferInstanceAs (Decidable (∀ e ∈ s.connToRelay, e.2 ≠ me))
  | .pump _ .giveUp | .pump _ .register | .pump _ .announce | .pump _ .report | .pump _ .relayGone
  | .pump _ (.deliver _) | .pump _ .takeCommand | .pump _ .finishWrite | .pump _ .buffered
  | .pump _ .closeApp | .pump _ .unregister | .sessionDestroy _ | .destroyed | .destroy _ | .accept ..
  | .handleEvent | .enqueue | .abortHeartbeat | .cancelHeartbeat | .dropSender | .writeFrame
  | .failDrain | .finishDrain | .joinDrain | .release | .sweep => isTrue trivial

/-! ## The invariant -/

/-- The display is still the connection's: it is in the registry, or the connection's own
    `SessionDestroy` has taken it out and its `destroy_session` has yet to come to the registry. -/
def Claims (me : String) (s : State) (disp : DisplayNumber) : Prop :=
  (disp, me) ∈ s.connToRelay ∨ ∃ d call, s.task = .destroying d ∧ s.destroys[d]? = some call ∧
    call.display = disp ∧ 2 ≤ call.phase.left

end State

/-- How a pump stands to the displays that the connection claims: while no `Close` is on the way to a
    pump that holds the connection's sender, its display is one of them. -/
structure AppPump.Fits (me : String) (claims : DisplayNumber → Prop) (p : AppPump) : Prop where
  entered : p.relay = some me → p.Open → claims p.display
  closing : p.relay = some me → ¬p.Open → p.phase = .relaying
  fresh : p.phase = .accepted → p.commands = []
  reads : p.relay = some me → p.reads = true

namespace State

structure Inv (me : String) (s : State) : Prop where
  audio : s.audio = false
  stalled : s.stalled = false
  pumps : ∀ p ∈ s.pumps, p.Fits me (s.Claims me)
  /-- `connections` has pumps that entered it -/
  entries : ∀ e ∈ s.connections, ∃ pump, s.pumps[e.2.sender]? = some pump ∧ pump.phase.entered = true
  heartbeat : s.task.inLoop = false → s.task ≠ .returned → s.heartbeat ≠ .alive
  left : s.task.inLoop = false → ∀ e ∈ s.connToRelay, e.2 ≠ me

end State

namespace AppPump

variable {me : String} {claims claims' : DisplayNumber → Prop} {p : AppPump}

/-- A pump that has given its clone back. -/
theorem fits_of_none (hrelay : p.relay = none) (hphase : p.phase = .accepted → p.commands = []) :
    p.Fits me claims where
  entered := fun h => absurd h (by simp [hrelay])
  closing := fun h => absurd h (by simp [hrelay])
  fresh := hphase
  reads := fun h => absurd h (by simp [hrelay])

theorem fits_finished : p.finished.Fits me claims := fits_of_none rfl nofun

theorem fits_dismissed : p.dismissed.Fits me claims := fits_of_none rfl nofun

/-- A pump that has just found an ingress. -/
theorem Fits.attach (h : p.Fits me claims) {relay : String} (hphase : p.phase = .accepted)
    (hclaims : relay = me → claims p.display) (hreads : relay = me → p.reads = true) :
    AppPump.Fits me claims { p with relay := some relay, phase := .attached } := by
  have hcommands := h.fresh hphase
  refine ⟨?_, ?_, nofun, fun hme => hreads (Option.some.inj hme)⟩
  · intro hme _
    exact hclaims (Option.some.inj hme)
  · intro _ hclosing
    exact absurd hclosing (by simp [Open, hcommands])

/-- A pump that goes on before it is in its legs: nobody has told it to close. -/
theorem Fits.advance (h : p.Fits me claims) {phase : PumpPhase} (hphase : p.phase ≠ .relaying)
    (hfresh : phase ≠ .accepted) : AppPump.Fits me claims { p with phase := phase } := by
  refine ⟨h.entered, ?_, fun hp => absurd hp hfresh, h.reads⟩
  intro hme hclosing
  exact absurd (h.closing hme hclosing) hphase

/-- Payloads are queued for a pump or taken by it; a `Close` among its commands stays. -/
theorem Fits.setCommands (h : p.Fits me claims) (hphase : p.phase ≠ .accepted)
    {commands : List X11RelayToConn} (writing : Bool)
    (hclose : X11RelayToConn.close ∈ commands ↔ X11RelayToConn.close ∈ p.commands) :
    AppPump.Fits me claims { p with commands := commands, writing := writing } := by
  have hopen : AppPump.Open { p with commands := commands, writing := writing } ↔ p.Open :=
    not_congr hclose
  refine ⟨?_, ?_, fun hphase' => absurd hphase' hphase, h.reads⟩
  · intro hme ho
    exact h.entered hme (hopen.mp ho)
  · intro hme hclosing
    exact h.closing hme (mt hopen.mpr hclosing)

theorem Fits.pushData (h : p.Fits me claims) (hphase : p.phase ≠ .accepted) (bytes : Bytes) :
    (p.push (.data bytes)).Fits me claims := by
  unfold push
  split
  · exact h
  · exact h.setCommands hphase p.writing (by simp)

/-- `Close` comes to a pump of the connection when it is in its legs. -/
theorem Fits.pushClose (h : p.Fits me claims) (hphase : p.phase ≠ .accepted)
    (hrelaying : p.relay = some me → p.phase = .relaying) : (p.push .close).Fits me claims := by
  unfold push
  split
  · exact h
  · refine ⟨?_, ?_, fun hphase' => absurd hphase' hphase, h.reads⟩
    · intro _ hopen
      exact absurd hopen (by simp [Open])
    · intro hme _
      exact hrelaying hme

/-- The registry changes, but not for the display of a pump that has not been told to close. -/
theorem Fits.claim (h : p.Fits me claims)
    (hclaims : p.relay = some me → p.Open → claims p.display → claims' p.display) :
    p.Fits me claims' :=
  ⟨fun hme hopen => hclaims hme hopen (h.entered hme hopen), h.closing, h.fresh, h.reads⟩

@[simp] theorem push_phase (p : AppPump) (cmd : X11RelayToConn) : (p.push cmd).phase = p.phase := by
  unfold push
  split <;> rfl

end AppPump

namespace State

variable {me : String} {features : Features} {s t : State}

/-! ## Steps of the pumps -/

theorem claims_congr (htask : t.task = s.task) (hreg : t.connToRelay = s.connToRelay)
    (hdestroys : t.destroys = s.destroys) : t.Claims me = s.Claims me := by
  funext disp
  unfold Claims
  rw [htask, hreg, hdestroys]

/-- A pump is replaced, and stays in `connections` when it is there. -/
theorem Inv.setPump (h : s.Inv me) {p : Nat} {pump new : AppPump} (hp : s.pumps[p]? = some pump)
    (hfits : new.Fits me (s.Claims me))
    (hentered : pump.phase.entered = true → new.phase.entered = true) : (s.setPump p new).Inv me := by
  refine ⟨h.audio, h.stalled, forall_mem_set h.pumps hfits, ?_, h.heartbeat, h.left⟩
  intro e he
  obtain ⟨old, hold, hphase⟩ := h.entries e he
  rcases getElem?_set_of new hp hold with ⟨rfl, rfl, hnew⟩ | ⟨-, hsame⟩
  · exact ⟨new, hnew, hentered hphase⟩
  · exact ⟨old, hsame, hphase⟩

/-- What is not said of the invariant changes. -/
theorem Inv.congr (h : s.Inv me) (haudio : t.audio = false) (hstalled : t.stalled = s.stalled) (htask : t.task = s.task)
    (hreg : t.connToRelay = s.connToRelay) (hdestroys : t.destroys = s.destroys)
    (hpumps : t.pumps = s.pumps) (hconns : ∀ e ∈ t.connections, e ∈ s.connections)
    (hheart : t.heartbeat = s.heartbeat ∨ t.heartbeat = .gone) : t.Inv me := by
  refine ⟨haudio, hstalled.trans h.stalled, ?_, ?_, ?_, ?_⟩
  · rw [hpumps, claims_congr htask hreg hdestroys]
    exact h.pumps
  · intro e he
    rw [hpumps]
    exact h.entries e (hconns e he)
  · intro hloop hreturned
    rw [htask] at hloop hreturned
    rcases hheart with hsame | hgone
    · rw [hsame]
      exact h.heartbeat hloop hreturned
    · rw [hgone]
      simp
  · rw [htask, hreg]
    exact h.left

@[simp] theorem reported_pumps (s : State) (pump : AppPump) :
    (s.reported me pump).pumps = s.pumps := by
  unfold State.reported
  split <;> rfl

theorem Inv.reported (h : s.Inv me) (pump : AppPump) : (s.reported me pump).Inv me := by
  unfold State.reported
  split
  · exact h.congr h.audio rfl rfl rfl rfl rfl (fun _ he => he) (.inl rfl)
  · exact h

theorem claims_reported (pump : AppPump) : (s.reported me pump).Claims me = s.Claims me := by
  unfold State.reported
  split <;> rfl

theorem Inv.unregister (h : s.Inv me) (id : ConnectionId) : (s.unregister id).Inv me := by
  unfold State.unregister
  split
  · exact h.congr h.audio rfl rfl rfl rfl rfl (fun e he => (Assoc.mem_remove.mp he).1) (.inl rfl)
  · exact h

/-- A pump whose command channel is in `connections` has entered it. -/
theorem Inv.reaches (h : s.Inv me) {p : Nat} {pump : AppPump} (hp : s.pumps[p]? = some pump)
    (hreaches : s.reaches p pump = true) : pump.phase.entered = true := by
  obtain ⟨conn, hconn, hsender⟩ := (Option.any_eq_true _ _).mp hreaches
  obtain ⟨old, hold, hphase⟩ := h.entries _ (Assoc.mem_of_get hconn)
  rw [of_decide_eq_true hsender, hp] at hold
  exact Option.some.inj hold ▸ hphase

theorem registerStep_inv (hI : s.Inv me) {p : Nat} {pump : AppPump} (hp : s.pumps[p]? = some pump)
    (h : s.registerStep p pump = some t) : t.Inv me := by
  have hfits := hI.pumps pump (List.mem_of_getElem? hp)
  cases hphase : pump.phase with
  | attached =>
    simp only [registerStep, hphase] at h
    split at h
    · obtain rfl := Option.some.inj h
      exact hI.setPump hp AppPump.fits_dismissed (by simp [hphase, PumpPhase.entered])
    · obtain rfl := Option.some.inj h
      exact hI.setPump hp (hfits.advance (by simp [hphase]) nofun) (by simp [hphase, PumpPhase.entered])
  | inserting =>
    simp only [registerStep, hphase] at h
    obtain rfl := Option.some.inj h
    have hlisting : AppPump.Fits me (s.Claims me) { pump with phase := .listing } :=
      hfits.advance (by simp [hphase]) nofun
    have hnew := hI.setPump hp hlisting fun _ => rfl
    refine ⟨hnew.audio, hnew.stalled, hnew.pumps, ?_, hnew.heartbeat, hnew.left⟩
    intro e he
    rcases Assoc.mem_put.mp he with rfl | ⟨hold, -⟩
    · obtain ⟨hlt, -⟩ := List.getElem?_eq_some_iff.mp hp
      exact ⟨_, List.getElem?_set_self hlt, rfl⟩
    · exact hnew.entries e hold
  | listing =>
    simp only [registerStep, hphase] at h
    obtain rfl := Option.some.inj h
    have hlisted : Inv me { s with
        displayConns := Assoc.put s.displayConns pump.display
          ((s.connsOf pump.display).insert pump.id) } :=
      hI.congr hI.audio rfl rfl rfl rfl rfl (fun _ he => he) (.inl rfl)
    exact hlisted.setPump hp (hfits.advance (by simp [hphase]) nofun) fun _ => rfl
  | accepted | announcing | relaying | ended | refused =>
    simp only [registerStep, hphase] at h
    contradiction

theorem pumpStep_inv (hI : s.Inv me) {p : Nat} {pump : AppPump} {a : PumpAction}
    (hp : s.pumps[p]? = some pump) (ho : s.Orderly me features (.pump p a))
    (h : s.pumpStep me p pump a = some t) : t.Inv me := by
  have hfits := hI.pumps pump (List.mem_of_getElem? hp)
  cases a with
  | attach =>
    simp only [pumpStep] at h
    split at h
    · rename_i relay hphase hget
      obtain rfl := Option.some.inj h
      refine hI.setPump hp (hfits.attach hphase ?_ ?_) (by simp [hphase, PumpPhase.entered])
      · rintro rfl
        exact .inl (Assoc.mem_of_get hget)
      · rintro rfl
        exact ho pump hp hget
    · contradiction
  | giveUp =>
    simp only [pumpStep] at h
    split at h
    · rename_i hphase
      obtain rfl := Option.some.inj h
      exact hI.setPump hp AppPump.fits_dismissed (by simp [hphase, PumpPhase.entered])
    · contradiction
  | register => exact registerStep_inv hI hp h
  | announce =>
    simp only [pumpStep] at h
    split at h
    · rename_i hready
      obtain rfl := Option.some.inj h
      refine (hI.reported pump).setPump (by rw [reported_pumps]; exact hp) ?_ fun _ => rfl
      rw [claims_reported]
      exact hfits.advance (by simp [hready.1]) nofun
    · contradiction
  | report =>
    simp only [pumpStep] at h
    split at h
    · obtain rfl := Option.some.inj h
      exact hI.reported pump
    · contradiction
  | relayGone =>
    simp only [pumpStep] at h
    split at h
    · obtain rfl := Option.some.inj h
      exact hI.setPump hp AppPump.fits_finished fun _ => rfl
    · contradiction
  | deliver bytes =>
    simp only [pumpStep] at h
    split at h
    · rename_i hroom
      obtain rfl := Option.some.inj h
      have hentered := hI.reaches hp hroom.1
      refine hI.setPump hp (hfits.pushData ?_ bytes) (by simp)
      intro hphase
      simp [hphase, PumpPhase.entered] at hentered
    · contradiction
  | takeCommand =>
    simp only [pumpStep] at h
    split at h
    · rename_i bytes rest hphase _ hcommands
      obtain rfl := Option.some.inj h
      exact hI.setPump hp (hfits.setCommands (by simp [hphase]) true (by simp [hcommands])) id
    · obtain rfl := Option.some.inj h
      exact hI.setPump hp AppPump.fits_finished fun _ => rfl
    · contradiction
  | finishWrite | buffered =>
    simp only [pumpStep] at h
    split at h
    · obtain rfl := Option.some.inj h
      exact hI.setPump hp ⟨hfits.entered, hfits.closing, hfits.fresh, hfits.reads⟩ id
    · contradiction
  | closeApp =>
    simp only [pumpStep] at h
    split at h
    · obtain rfl := Option.some.inj h
      exact hI.setPump hp AppPump.fits_finished fun _ => rfl
    · contradiction
  | unregister =>
    simp only [pumpStep] at h
    split at h
    · obtain rfl := Option.some.inj h
      exact hI.unregister pump.id
    · contradiction

/-! ## Sections of `destroy_session` -/

/-- What a section does to the state, but for the phase of its call. -/
inductive DestroyStep (s : State) (call : DestroyCall) : DestroyPhase → State → Prop
  | pass {phase : DestroyPhase} {displayConns : List (DisplayNumber × List ConnectionId)}
      (hphase : call.phase ≠ .removeRelay) (hleft : 3 ≤ call.phase.left → 2 ≤ phase.left) :
    DestroyStep s call phase { s with displayConns := displayConns }
  | close {phase : DestroyPhase} {id : ConnectionId} {u : State}
      (hphase : closesNext call.phase = some id) (hleft : 2 ≤ phase.left)
      (hsend : s.sendClose id = some u) : DestroyStep s call phase u
  | removeRelay (hphase : call.phase = .removeRelay) :
    DestroyStep s call .removeSession
      { s with connToRelay := Assoc.remove s.connToRelay call.display }

theorem destroyStep_cases {d : Nat} {call : DestroyCall} (h : s.destroyStep d call = some t) :
    ∃ phase u, DestroyStep s call phase u ∧
      t = { u with destroys := u.destroys.set d { call with phase := phase } } := by
  obtain ⟨⟨phase, u⟩, hnext, rfl⟩ := Option.map_eq_some_iff.mp h
  refine ⟨phase, u, ?_, rfl⟩
  cases hp : call.phase with
  | closing ids =>
    cases ids with
    | nil =>
      simp only [hp, DestroyParts.next, destroyParts] at hnext
      cases hnext
      exact .pass (by simp [hp]) fun _ => by simp [DestroyPhase.left]
    | cons id rest =>
      cases hsend : s.sendClose id with
      | none =>
        simp only [hp, DestroyParts.next, destroyParts, hsend, Option.map_none] at hnext
        contradiction
      | some w =>
        have hleft : 2 ≤ phase.left ∧ w = u := by
          cases rest with
          | nil =>
            simp only [hp, DestroyParts.next, destroyParts, hsend, Option.map_some] at hnext
            cases hnext
            exact ⟨by simp [DestroyPhase.left], rfl⟩
          | cons id' rest =>
            simp only [hp, DestroyParts.next, destroyParts, hsend, Option.map_some] at hnext
            cases hnext
            exact ⟨by simp [DestroyPhase.left], rfl⟩
        exact .close (by simp [hp, closesNext]) hleft.1 (hleft.2 ▸ hsend)
  | takeConns =>
    cases hids : Assoc.get s.displayConns call.display with
    | some ids | none =>
      simp only [hp, DestroyParts.next, destroyParts, hids] at hnext
      cases hnext
      exact .pass (by simp [hp]) fun _ => by simp [DestroyPhase.left]
  | removeRelay =>
    simp only [hp, DestroyParts.next, destroyParts] at hnext
    cases hnext
    exact .removeRelay hp
  | cancelGrace | unbind | xauthRemove | removeSession =>
    simp only [hp, DestroyParts.next, destroyParts] at hnext
    cases hnext
    exact .pass (by simp [hp]) (by simp [hp, DestroyPhase.left])
  | done =>
    simp only [hp, DestroyParts.next] at hnext
    contradiction

theorem sendClose_inv (hI : s.Inv me) {id : ConnectionId}
    (ho : ∀ conn ∈ Assoc.get s.connections id, ∀ pump ∈ s.pumps[conn.sender]?,
      pump.relay = some me → pump.phase = .relaying)
    (h : s.sendClose id = some t) :
    t.Inv me ∧ t.task = s.task ∧ t.connToRelay = s.connToRelay ∧ t.destroys = s.destroys := by
  have hless : Inv me { s with connections := Assoc.remove s.connections id } :=
    hI.congr hI.audio rfl rfl rfl rfl rfl (fun e he => (Assoc.mem_remove.mp he).1) (.inl rfl)
  unfold sendClose at h
  split at h
  · rename_i conn hconn
    split at h
    · rename_i pump hp
      split at h
      · contradiction
      · obtain rfl := Option.some.inj h
        obtain ⟨old, hold, hentered⟩ := hI.entries _ (Assoc.mem_of_get hconn)
        obtain rfl : old = pump := Option.some.inj (hold.symm.trans hp)
        have hphase : old.phase ≠ .accepted := by
          intro hphase
          simp [hphase, PumpPhase.entered] at hentered
        have hfits := hless.pumps old (List.mem_of_getElem? hp)
        exact ⟨hless.setPump hp (hfits.pushClose hphase (ho conn hconn old hp)) (by simp),
          rfl, rfl, rfl⟩
    · obtain rfl := Option.some.inj h
      exact ⟨hless, rfl, rfl, rfl⟩
  · obtain rfl := Option.some.inj h
    exact ⟨hI, rfl, rfl, rfl⟩

/-- A call moves on without touching the registry. -/
theorem Inv.moveDestroy (hI : s.Inv me) {d : Nat} {call : DestroyCall} {phase : DestroyPhase}
    (hd : s.destroys[d]? = some call) (hleft : 2 ≤ call.phase.left → 2 ≤ phase.left) :
    Inv me { s with destroys := s.destroys.set d { call with phase := phase } } := by
  refine ⟨hI.audio, hI.stalled, fun p hp => (hI.pumps p hp).claim ?_, hI.entries, hI.heartbeat, hI.left⟩
  rintro _ _ (hreg | ⟨d', call', htask, hd', hdisp, hleft'⟩)
  · exact .inl hreg
  · refine .inr ?_
    rcases getElem?_set_of { call with phase := phase } hd hd' with ⟨rfl, rfl, hnew⟩ | ⟨-, hsame⟩
    · exact ⟨d, _, htask, hnew, hdisp, hleft hleft'⟩
    · exact ⟨d', call', htask, hsame, hdisp, hleft'⟩

/-- A display leaves the registry when every application of the connection on it has been told. -/
theorem Inv.removeRelay (hI : s.Inv me) {disp : DisplayNumber} (htold : s.ToldToClose me disp) :
    Inv me { s with connToRelay := Assoc.remove s.connToRelay disp } := by
  refine ⟨hI.audio, hI.stalled, fun p hp => (hI.pumps p hp).claim ?_, hI.entries, hI.heartbeat, ?_⟩
  · rintro hme hopen (hreg | hown)
    · exact .inl (Assoc.mem_remove.mpr ⟨hreg, fun hdisp => htold p hp hme hdisp hopen⟩)
    · exact .inr hown
  · intro hloop e he
    exact hI.left hloop e (Assoc.mem_remove.mp he).1

theorem destroyStep_inv (hI : s.Inv me) {d : Nat} {call : DestroyCall}
    (hd : s.destroys[d]? = some call) (ho : s.DestroysOrderly me call)
    (h : s.destroyStep d call = some t) : t.Inv me := by
  obtain ⟨phase, u, hstep, rfl⟩ := destroyStep_cases h
  cases hstep with
  | @pass _ displayConns hphase hleft =>
    have hlisted : Inv me { s with displayConns := displayConns } :=
      hI.congr hI.audio rfl rfl rfl rfl rfl (fun _ he => he) (.inl rfl)
    exact hlisted.moveDestroy hd fun htwo => hleft (DestroyPhase.three_le_left htwo hphase)
  | close hphase hleft hsend =>
    obtain ⟨hu, -, -, hdestroys⟩ := sendClose_inv hI (ho.1 _ hphase) hsend
    exact hu.moveDestroy (hdestroys ▸ hd) fun _ => hleft
  | removeRelay hphase =>
    have htold := ho.2 hphase
    have hremoved := hI.removeRelay htold
    refine ⟨hremoved.audio, hremoved.stalled, fun p hp => (hremoved.pumps p hp).claim ?_, hremoved.entries,
      hremoved.heartbeat, hremoved.left⟩
    rintro hme hopen (hreg | ⟨d', call', htask, hd', hdisp, hleft'⟩)
    · exact .inl hreg
    · rcases getElem?_set_of { call with phase := .removeSession } hd hd' with ⟨rfl, rfl, -⟩ | ⟨-, hsame⟩
      · exact absurd hopen (htold p hp hme hdisp.symm)
      · exact .inr ⟨d', call', htask, hsame, hdisp, hleft'⟩

/-! ## Steps of the connection -/

/-- `handle_client` goes on behind `relay_loop`. -/
theorem Inv.advance (h : s.Inv me) {task : Task} (hloop : s.task.inLoop = false)
    (hreturned : s.task ≠ .returned) :
    Inv me { s with task := task } := by
  refine ⟨h.audio, h.stalled, fun p hp => (h.pumps p hp).claim ?_, h.entries, fun _ _ => h.heartbeat hloop hreturned,
    fun _ => h.left hloop⟩
  rintro _ _ (hreg | ⟨d, call, hd, -⟩)
  · exact .inl hreg
  · simp [hd, Task.inLoop] at hloop

/-- A display is registered for another connection. -/
theorem Inv.takeOver (h : s.Inv me) {disp : DisplayNumber} {client : String} (hclient : client ≠ me)
    (htold : s.ToldToClose me disp) :
    Inv me { s with connToRelay := Assoc.put s.connToRelay disp client } := by
  refine ⟨h.audio, h.stalled, fun p hp => (h.pumps p hp).claim ?_, h.entries, h.heartbeat, ?_⟩
  · rintro hme hopen (hreg | hown)
    · exact .inl (Assoc.mem_put.mpr (.inr ⟨hreg, fun hdisp => htold p hp hme hdisp hopen⟩))
    · exact .inr hown
  · intro hloop e he
    rcases Assoc.mem_put.mp he with rfl | ⟨he, -⟩
    · exact hclient
    · exact h.left hloop e he

/-- A display of the connection is registered. -/
theorem Inv.ack (h : s.Inv me) (htask : s.task = .running) (disp : DisplayNumber) {audio : Bool}
    {frames : Nat} (haudio : audio = false) :
    Inv me { s with
      connToRelay := Assoc.put s.connToRelay disp me
      audio := audio
      frames := frames } := by
  refine ⟨haudio, h.stalled, fun p hp => (h.pumps p hp).claim ?_, h.entries, h.heartbeat,
    fun hloop => absurd hloop (by simp [htask, Task.inLoop])⟩
  rintro - - (hreg | ⟨d, call, hd, -⟩)
  · refine .inl (Assoc.mem_put.mpr ?_)
    by_cases hd : p.display = disp
    · exact .inl (by rw [hd])
    · exact .inr ⟨hreg, hd⟩
  · simp [hd] at htask

/-- The handler of `SessionDestroy` unregisters the display and calls `destroy_session`. -/
theorem Inv.sessionDestroy (h : s.Inv me) (htask : s.task = .running) (disp : DisplayNumber) :
    Inv me { s with
      task := .destroying s.destroys.length
      connToRelay := Assoc.remove s.connToRelay disp
      destroys := s.destroys ++ [⟨disp, .cancelGrace⟩] } := by
  refine ⟨h.audio, h.stalled, fun p hp => (h.pumps p hp).claim ?_, h.entries, nofun, nofun⟩
  rintro - - (hreg | ⟨d, call, hd, -⟩)
  · by_cases hd : p.display = disp
    · exact .inr ⟨_, _, rfl, List.getElem?_concat_length, hd.symm, by simp [DestroyPhase.left]⟩
    · exact .inl (Assoc.mem_remove.mpr ⟨hreg, hd⟩)
  · simp [hd] at htask

/-- Its call has returned. -/
theorem Inv.destroyed (h : s.Inv me) {d : Nat} (htask : s.task = .destroying d)
    (hdone : ∀ call, s.destroys[d]? = some call → call.phase = .done) :
    Inv me { s with task := .running } := by
  refine ⟨h.audio, h.stalled, fun p hp => (h.pumps p hp).claim ?_, h.entries, nofun, nofun⟩
  rintro - - (hreg | ⟨d', call, hd, hcall, -, hleft⟩)
  · exact .inl hreg
  · rw [htask] at hd
    obtain rfl := Task.destroying.inj hd
    simp [hdone call hcall, DestroyPhase.left] at hleft

/-- A call that another task makes. -/
theorem Inv.destroy (h : s.Inv me) (disp : DisplayNumber) :
    Inv me { s with destroys := s.destroys ++ [⟨disp, .cancelGrace⟩] } := by
  refine ⟨h.audio, h.stalled, fun p hp => (h.pumps p hp).claim ?_, h.entries, h.heartbeat, h.left⟩
  rintro - - (hreg | ⟨d, call, hd, hcall, hrest⟩)
  · exact .inl hreg
  · obtain ⟨hlt, -⟩ := List.getElem?_eq_some_iff.mp hcall
    exact .inr ⟨d, call, hd, by rw [List.getElem?_append_left hlt]; exact hcall, hrest⟩

theorem Inv.accept (h : s.Inv me) (disp : DisplayNumber) (id : ConnectionId) (reads : Bool) :
    Inv me { s with pumps := s.pumps ++ [⟨id, disp, reads, none, .accepted, [], false⟩] } := by
  refine ⟨h.audio, h.stalled, forall_mem_snoc h.pumps (AppPump.fits_of_none rfl fun _ => rfl), ?_, h.heartbeat,
    h.left⟩
  intro e he
  obtain ⟨pump, hp, hentered⟩ := h.entries e he
  obtain ⟨hlt, -⟩ := List.getElem?_eq_some_iff.mp hp
  exact ⟨pump, by rw [List.getElem?_append_left hlt]; exact hp, hentered⟩

theorem step_inv {a : Action} (hI : s.Inv me) (ho : s.Orderly me features a)
    (h : s.step me features a = some t) : t.Inv me := by
  cases a with
  | ack disp =>
    simp only [step] at h
    split at h
    · rename_i htask
      obtain rfl := Option.some.inj h
      have hfeat : features.supports .audioForward = false := ho
      exact hI.ack htask disp (by rw [hI.audio, hfeat]; rfl)
    · contradiction
  | takeOver disp client =>
    simp only [step] at h
    split at h
    · contradiction
    · rename_i hclient
      obtain rfl := Option.some.inj h
      exact hI.takeOver hclient ho
  | sessionDestroy disp =>
    simp only [step] at h
    split at h
    · rename_i htask
      obtain rfl := Option.some.inj h
      exact hI.sessionDestroy htask disp
    · contradiction
  | destroyed =>
    simp only [step] at h
    split at h
    · rename_i d htask
      split at h
      · rename_i hdone
        obtain rfl := Option.some.inj h
        refine hI.destroyed htask fun call hcall => ?_
        simpa [hcall] using hdone
      · contradiction
    · contradiction
  | unregisterRelay disp =>
    obtain rfl := Option.some.inj h
    exact hI.removeRelay ho
  | destroy disp =>
    obtain rfl := Option.some.inj h
    exact hI.destroy disp
  | destroyStep d =>
    simp only [step] at h
    split at h
    · rename_i call hd
      exact destroyStep_inv hI hd (ho call hd) h
    · contradiction
  | accept disp id reads =>
    obtain rfl := Option.some.inj h
    exact hI.accept disp id reads
  | pump p a =>
    simp only [step] at h
    split at h
    · rename_i pump hp
      exact pumpStep_inv hI hp ho h
    · contradiction
  | leave =>
    simp only [step] at h
    split at h
    · rename_i htask
      obtain rfl := Option.some.inj h
      refine ⟨hI.audio, hI.stalled, fun p hp => (hI.pumps p hp).claim ?_, hI.entries, fun _ hne => absurd rfl hne,
        fun _ => ho⟩
      rintro - - (hreg | ⟨d, call, hd, -⟩)
      · exact .inl hreg
      · simp [hd] at htask
    · contradiction
  | abortHeartbeat =>
    simp only [step] at h
    split at h
    · rename_i htask
      obtain rfl := Option.some.inj h
      refine ⟨hI.audio, hI.stalled, fun p hp => (hI.pumps p hp).claim ?_, hI.entries, ?_,
        fun _ => hI.left (by rw [htask]; rfl)⟩
      · rintro - - (hreg | ⟨d, call, hd, -⟩)
        · exact .inl hreg
        · simp [hd] at htask
      · intro _ _
        show (if s.heartbeat = .gone then Heartbeat.gone else .aborted) ≠ .alive
        split <;> simp
    · contradiction
  | dropSender =>
    simp only [step] at h
    split at h
    · rename_i htask
      obtain rfl := Option.some.inj h
      exact hI.advance (by rw [htask]; rfl) (by simp [htask])
    · contradiction
  | joinDrain =>
    simp only [step] at h
    split at h
    · rename_i htask
      obtain rfl := Option.some.inj h
      exact hI.advance (by rw [htask.1]; rfl) (by simp [htask.1])
    · contradiction
  | release =>
    simp only [step] at h
    split at h
    · rename_i htask
      obtain rfl := Option.some.inj h
      exact hI.advance (by rw [htask]; rfl) (by simp [htask])
    · contradiction
  | cancelHeartbeat =>
    simp only [step] at h
    split at h
    · obtain rfl := Option.some.inj h
      exact hI.congr hI.audio rfl rfl rfl rfl rfl (fun _ he => he) (.inr rfl)
    · contradiction
  | sweep =>
    simp only [step] at h
    split at h
    · obtain rfl := Option.some.inj h
      exact hI.congr rfl rfl rfl rfl rfl rfl (fun _ he => he) (.inl rfl)
    · contradiction
  | stall => exact ho.elim
  | handleEvent | enqueue | writeFrame | failDrain | finishDrain =>
    -- counters of the two queues only
    simp only [step] at h
    split at h
    · obtain rfl := Option.some.inj h
      exact hI.congr hI.audio rfl rfl rfl rfl rfl (fun _ he => he) (.inl rfl)
    · contradiction

/-! ## Progress -/

/-- Commands and writes that stand between a pump of the connection and its end. -/
def pumpWork (me : String) (p : AppPump) : Nat :=
  if p.relay = some me then 2 * p.commands.length + p.writing.toNat else 0

def taskWork : Task → Nat
  | .awaitingDrain => 2
  | .drained => 1
  | _ => 0

def heartbeatWork : Heartbeat → Nat
  | .gone => 0
  | _ => 1

/-- What is left to do before every clone is dropped and the session is released. -/
def work (me : String) (s : State) : Nat :=
  total (pumpWork me) s.pumps + heartbeatWork s.heartbeat + s.frames + (!s.drainDone).toNat +
    taskWork s.task

/-- Behind `relay_loop`, a pump that still holds the connection's sender has been told to close. -/
theorem Inv.told (h : s.Inv me) (hloop : s.task.inLoop = false) {pump : AppPump} (hp : pump ∈ s.pumps)
    (hme : pump.relay = some me) : ¬pump.Open := by
  intro hopen
  rcases (h.pumps pump hp).entered hme hopen with hreg | ⟨d, call, hd, -⟩
  · exact h.left hloop _ hreg rfl
  · simp [hd, Task.inLoop] at hloop

/-- A pump of the connection ends its write, which the application reads, or takes its next command: there
    is one, since a `Close` is on the way. -/
theorem pump_progress (hI : s.Inv me) (hloop : s.task.inLoop = false) {pump : AppPump}
    (hp : pump ∈ s.pumps) (hme : pump.relay = some me) :
    ∃ p a t, (Action.pump p a).pending = true ∧ a ≠ .attach ∧ s.step me features (.pump p a) = some t ∧
      t.task = s.task ∧ t.work me < s.work me := by
  obtain ⟨p, hget⟩ := List.mem_iff_getElem?.mp hp
  have hclosing := hI.told hloop hp hme
  have hphase := (hI.pumps pump hp).closing hme hclosing
  have hreads := (hI.pumps pump hp).reads hme
  have hwork : ∀ new : AppPump, pumpWork me new < pumpWork me pump →
      (s.setPump p new).work me < s.work me := by
    intro new hlt
    have htotal := total_set (pumpWork me) new hget
    simp only [work, setPump]
    omega
  cases hwriting : pump.writing with
  | true =>
    refine ⟨p, .finishWrite, s.setPump p { pump with writing := false }, rfl, nofun, ?_, rfl, hwork _ ?_⟩
    · simp only [step, hget, pumpStep, hwriting, hreads, and_self, if_true]
    · simp [pumpWork, hme, hwriting]
  | false =>
    rcases hcommands : pump.commands with _ | ⟨command, rest⟩
    · exact absurd hclosing (by simp [AppPump.Open, hcommands])
    · rcases command with bytes | _
      · refine ⟨p, .takeCommand, s.setPump p { pump with commands := rest, writing := true }, rfl, nofun,
          ?_, rfl, hwork _ ?_⟩
        · simp only [step, hget, pumpStep, hphase, hwriting, hcommands]
        · simp [pumpWork, hme, hcommands, hwriting]
          omega
      · refine ⟨p, .takeCommand, s.setPump p pump.finished, rfl, nofun, ?_, rfl, hwork _ ?_⟩
        · simp only [step, hget, pumpStep, hphase, hwriting, hcommands]
        · simp [pumpWork, hme, hcommands, hwriting, AppPump.finished]

/-- **Some pending step is always enabled** until every clone is dropped and the session is released,
    and it leaves less to do. -/
theorem pending_progress (hI : s.Inv me) (hdropped : s.task.ownsSender = false) :
    (s.held me = false ∧ s.task = .released) ∨
      ∃ a t, a.pending = true ∧ s.step me features a = some t ∧
        (t.Inv me ∧ t.task.ownsSender = false) ∧ t.work me < s.work me := by
  have hloop : s.task.inLoop = false := by
    cases htask : s.task <;> simp [htask, Task.ownsSender, Task.inLoop] at hdropped ⊢
  have hreturned : s.task ≠ .returned := by
    intro h
    rw [h] at hdropped
    contradiction
  -- a step keeps the invariant, so only its effect is to be shown
  have hstep : ∀ (a : Action) (t : State), a.pending = true → s.Orderly me features a →
      s.step me features a = some t → t.task.ownsSender = false → t.work me < s.work me →
        ∃ a t, a.pending = true ∧ s.step me features a = some t ∧
          (t.Inv me ∧ t.task.ownsSender = false) ∧ t.work me < s.work me := by
    intro a t ha ho hs htask hlt
    exact ⟨a, t, ha, hs, ⟨step_inv hI ho hs, htask⟩, hlt⟩
  by_cases hpump : ∃ pump ∈ s.pumps, pump.relay = some me
  · obtain ⟨pump, hp, hme⟩ := hpump
    obtain ⟨p, a, t, ha, hattach, hs, htask, hlt⟩ := pump_progress hI hloop hp hme
    have ho : s.Orderly me features (.pump p a) := by
      cases a with
      | attach => exact absurd rfl hattach
      | _ => trivial
    exact .inr (hstep (.pump p a) t ha ho hs (htask ▸ hdropped) hlt)
  · by_cases hgone : s.heartbeat = .gone
    · have hheld : s.held me = false := by
        have hregistry := hI.left hloop
        simp only [held, hdropped, hgone, hI.audio]
        simpa using ⟨fun d client hmem => hregistry (d, client) hmem,
          fun pump hp hme => hpump ⟨pump, hp, hme⟩⟩
      rcases hdone : s.drainDone with _ | _
      · by_cases hframes : s.frames = 0
        · refine .inr (hstep .finishDrain _ rfl trivial (if_pos ⟨hdone, hframes, hheld⟩) hdropped ?_)
          simp [work, hdone]
        · refine .inr (hstep .writeFrame _ rfl trivial (if_pos ⟨hdone, hI.stalled, by omega⟩) hdropped ?_)
          simp only [work]
          omega
      · cases htask : s.task with
        | running | destroying d | returned | heartbeatAborted =>
          rw [htask] at hdropped
          contradiction
        | awaitingDrain =>
          refine .inr (hstep .joinDrain _ rfl trivial (if_pos ⟨htask, hdone⟩) rfl ?_)
          simp [work, htask, taskWork]
        | drained =>
          refine .inr (hstep .release _ rfl trivial (if_pos htask) rfl ?_)
          simp [work, htask, taskWork]
        | released => exact .inl ⟨hheld, rfl⟩
    · have haborted : s.heartbeat = .aborted := by
        rcases hh : s.heartbeat with _ | _ | _
        · exact absurd hh (hI.heartbeat hloop hreturned)
        · rfl
        · exact absurd hh hgone
      refine .inr (hstep .cancelHeartbeat _ rfl trivial (if_pos (.inl haborted)) hdropped ?_)
      simp [work, haborted, heartbeatWork]

/-- **Release is reached.** For any clients, applications and interleaving: in a run in which the
    displays of the connection are given up in order before `relay_loop` returns, every state in which
    `handle_client` has dropped its own sender leads, by steps that are pending in the server, to one in
    which every clone is dropped and `release_session` has been called. -/
theorem release_reached (me : String) (features : Features) (as : List Action) (t : State)
    (hr : run (step me features) init as = some t)
    (ho : Meets (step me features) (Orderly me features) init as) : t.Settles me features := by
  have hinit : init.Inv me :=
    ⟨rfl, rfl, fun p hp => absurd hp List.not_mem_nil, fun e he => absurd he List.not_mem_nil, nofun, nofun⟩
  have hI : t.Inv me := run_inv (fun _ _ _ hI hg h => step_inv hI hg h) hinit ho hr
  intro htask
  obtain ⟨bs, u, hpending, hrun, -, hheld, hreleased⟩ :=
    run_reaches (work me) (fun s hs => pending_progress hs.1 hs.2)
      (show t.Inv me ∧ t.task.ownsSender = false from ⟨hI, by rw [htask]; rfl⟩)
  exact ⟨bs, u, hpending, hrun, hheld, hreleased⟩

/-- A session with an application that is closed by a `SessionDestroy` while a payload is queued for it;
    then the client goes away, and `handle_client` is at the drain task. -/
def orderlyRun : List Action :=
  [.ack ⟨10⟩, .accept ⟨10⟩ ⟨1⟩ true, .pump 0 .attach, .pump 0 .register, .pump 0 .register,
    .pump 0 .register, .pump 0 .announce, .handleEvent, .pump 0 (.deliver [7]), .writeFrame,
    .sessionDestroy ⟨10⟩] ++ List.replicate 7 (.destroyStep 0) ++
  [.destroyed, .leave, .abortHeartbeat, .dropSender]

theorem release_reached_orderly :
    ∃ t, run (step "me" ⟨[]⟩) init orderlyRun = some t ∧ t.task = .awaitingDrain ∧
      t.pumps.any (fun p => p.relay = some "me") = true ∧ t.Settles "me" ⟨[]⟩ :=
  have hr := Option.eq_some_of_isSome
    (show (run (step "me" ⟨[]⟩) init orderlyRun).isSome = true by decide +kernel)
  ⟨_, hr, by decide +kernel, by decide +kernel,
    release_reached "me" ⟨[]⟩ orderlyRun _ hr (by decide +kernel)⟩

/-! ## A display left in the registry -/

theorem pumpStep_connToRelay {p : Nat} {pump : AppPump} {a : PumpAction}
    (h : s.pumpStep me p pump a = some t) :
    t.connToRelay = s.connToRelay ∧ t.destroys = s.destroys := by
  have hreported : (s.reported me pump).connToRelay = s.connToRelay ∧
      (s.reported me pump).destroys = s.destroys := by
    unfold State.reported
    split <;> exact ⟨rfl, rfl⟩
  have hunregister : (s.unregister pump.id).connToRelay = s.connToRelay ∧
      (s.unregister pump.id).destroys = s.destroys := by
    unfold State.unregister
    split <;> exact ⟨rfl, rfl⟩
  unfold pumpStep at h
  cases a with
  | register =>
    simp only [registerStep] at h
    split at h
    · split at h <;> obtain rfl := Option.some.inj h <;> exact ⟨rfl, rfl⟩
    · obtain rfl := Option.some.inj h
      exact ⟨rfl, rfl⟩
    · obtain rfl := Option.some.inj h
      exact ⟨rfl, rfl⟩
    · contradiction
  | announce | report | unregister =>
    simp only at h
    split at h
    · obtain rfl := Option.some.inj h
      first | exact hreported | exact hunregister
    · contradiction
  | attach | giveUp | relayGone | deliver | finishWrite | buffered | closeApp =>
    simp only at h
    split at h
    · obtain rfl := Option.some.inj h
      exact ⟨rfl, rfl⟩
    · contradiction
  | takeCommand =>
    simp only at h
    split at h
    · obtain rfl := Option.some.inj h
      exact ⟨rfl, rfl⟩
    · obtain rfl := Option.some.inj h
      exact ⟨rfl, rfl⟩
    · contradiction

/-- While no `destroy_session` call is made, no pending step takes a display out of the registry. -/
theorem pending_connToRelay {a : Action} (ha : a.pending = true) (hnone : s.destroys = [])
    (h : s.step me features a = some t) : t.connToRelay = s.connToRelay ∧ t.destroys = [] := by
  cases a with
  | pump p a =>
    simp only [step] at h
    split at h
    · exact (pumpStep_connToRelay h).imp_right fun hsame => hsame.trans hnone
    · contradiction
  | destroyStep d =>
    simp [step, hnone] at h
  | destroyed =>
    simp only [step] at h
    split at h
    · simp [hnone] at h
    · contradiction
  | ack disp => contradiction
  | takeOver disp client => contradiction
  | sessionDestroy disp => contradiction
  | unregisterRelay disp => contradiction
  | destroy disp => contradiction
  | accept disp id reads => contradiction
  | stall => contradiction
  | _ =>
    simp only [step] at h
    split at h
    · obtain rfl := Option.some.inj h
      exact ⟨rfl, hnone⟩
    · contradiction

/-- A connection that leaves with a display in the registry does not settle, unless the display is being
    destroyed. -/
theorem not_settles_of_registered (htask : s.task = .awaitingDrain) (disp : DisplayNumber)
    (hreg : (disp, me) ∈ s.connToRelay) (hnone : s.destroys = []) : ¬s.Settles me features := by
  intro h
  obtain ⟨bs, u, hpending, hrun, hheld, -⟩ := h htask
  have hkept : u.connToRelay = s.connToRelay ∧ u.destroys = [] := by
    have hguard : Meets (step me features) (fun _ a => a.pending = true) s bs :=
      meets_of_forall (fun _ b hb => hpending b hb) s
    refine run_inv (I := fun v => v.connToRelay = s.connToRelay ∧ v.destroys = []) ?_
      ⟨rfl, hnone⟩ hguard hrun
    rintro v a w ⟨hv, hvnone⟩ ha hstep
    exact (pending_connToRelay ha hvnone hstep).imp_left fun hsame => hsame.trans hv
  have hany : u.connToRelay.any (fun e => e.2 = me) = true := by
    rw [hkept.1, List.any_eq_true]
    exact ⟨_, hreg, by simp⟩
  simp [held, hany] at hheld

/-- A session is acknowledged, the ack is written, and the client goes away. -/
def abandonedRun : List Action :=
  [.ack ⟨10⟩, .writeFrame, .leave, .abortHeartbeat, .dropSender]

/-- `release_session` is not reached: the registry keeps the drain task waiting. -/
theorem registry_keeps_sender :
    ¬∀ (as : List Action) (t : State), run (step "me" ⟨[]⟩) init as = some t →
      t.Settles "me" ⟨[]⟩ := by
  intro h
  have hr := Option.eq_some_of_isSome
    (show (run (step "me" ⟨[]⟩) init abandonedRun).isSome = true by decide +kernel)
  exact not_settles_of_registered (by decide +kernel) ⟨10⟩ (by decide +kernel) (by decide +kernel)
    (h abandonedRun _ hr)

end State

end RemoteX11.Server.Teardown
