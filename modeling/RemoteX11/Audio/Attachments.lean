/-
  X11 connections and the audio channels that speak for them (`x11_listener.rs`, the `Connected` and
  `Disconnected` events of `relay/connection.rs`, `session/mod.rs`).

  The parties are the listener's task of each X11 connection, from its registration on, the relay tasks,
  each with its queue of events, `destroy_session`, and the audio hub with its own surroundings. A step is
  what a party does between two awaits, or under one lock: an `unregister_x11_connection` takes the
  connection from `connections` first and from the applications next, and `attach_connection` comes after
  the lookup of the application. Every connection has an id of its own. A full event channel is a step
  that is not taken yet, and the data and flow control events are left out.
-/
import RemoteX11.Audio.Applications

namespace RemoteX11.Audio

open RemoteX11.Lib RemoteX11.Protocol

/-! ## The connections that the hub has channels for -/

namespace Hub

/-- The connections with a channel on the sound of the application. -/
def conns (s : Hub) (app : ApplicationId) : List ConnectionId :=
  match s.applications.get app with
  | some capture => capture.channels.map Channel.appConnectionId
  | none => []

/-- All connections with a channel. -/
def tagged (s : Hub) : List ConnectionId :=
  s.applications.entries.flatMap fun e => e.2.channels.map Channel.appConnectionId

/-- There is a channel tagged with the connection. -/
def Tags (s : Hub) (conn : ConnectionId) : Prop := conn ∈ s.tagged

instance (s : Hub) (conn : ConnectionId) : Decidable (s.Tags conn) :=
  inferInstanceAs (Decidable (conn ∈ s.tagged))

theorem tags_iff {s : Hub} {conn : ConnectionId} : s.Tags conn ↔ ∃ app, conn ∈ s.conns app := by
  unfold Tags tagged conns
  rw [List.mem_flatMap]
  constructor
  · rintro ⟨⟨app, capture⟩, hmem, hconn⟩
    refine ⟨app, ?_⟩
    rw [Table.mem_entries.mp hmem]
    exact hconn
  · rintro ⟨app, hconn⟩
    cases hget : s.applications.get app with
    | none => simp [hget] at hconn
    | some capture =>
      rw [hget] at hconn
      exact ⟨(app, capture), Table.mem_entries.mpr hget, hconn⟩

end Hub

/-- What the hub does without the X11 events of a relay. -/
def Action.isSurrounding : Action → Bool
  | .attach .. | .detach .. | .finishDetach => false
  | _ => true

/-! ## The model -/

/-- Where `handle_x11_connection` stands. -/
inductive Pump where
  /-- in `connections`; the application is registered next -/
  | enrolling
  /-- `Connected` is sent next -/
  | announcing
  /-- both legs are running -/
  | pumping
  /-- a leg has ended; `Disconnected` is sent next -/
  | ending
  /-- `unregister_x11_connection`: `connections` next, -/
  | removing
  /-- then the applications -/
  | forgetting
  | gone
  deriving DecidableEq, Repr

structure Conn where
  /-- the relay task behind its event channel -/
  relay : Nat
  /-- the application root of the peer process, where it is known -/
  peer : Option ApplicationId
  pump : Pump
  /-- it is in `connections` -/
  listed : Bool
  deriving DecidableEq, Repr

/-- `X11ConnToRelay`. -/
inductive Event where
  | connected (connectionId : ConnectionId)
  | disconnected (connectionId : ConnectionId)
  deriving DecidableEq, Repr

def Event.conn : Event → ConnectionId
  | .connected c => c
  | .disconnected c => c

/-- The next turn of `handle_x11_event`. -/
inductive Turn where
  /-- `Connected`: the application has been looked up, `attach_connection` is next -/
  | joining (app : Option ApplicationId)
  /-- `Disconnected`: the application has been looked up, `detach_connection` is next, -/
  | leaving (app : Option ApplicationId)
  /-- its end, -/
  | finishing
  /-- and then `unregister_x11_connection` -/
  | removing
  | forgetting
  deriving DecidableEq, Repr

structure Relay where
  alive : Bool
  /-- the per-application tier is negotiated and in force -/
  perApp : Bool
  audioClientId : ConnectionId
  x11Events : List Event
  handling : Option (ConnectionId × Turn)
  deriving DecidableEq, Repr

structure Server where
  conns : Table ConnectionId Conn
  applications : ApplicationRegistry
  relays : Nat → Relay
  hub : Hub

inductive ServerAction where
  /-- an application connects: it is put into `connections` -/
  | accept (conn : ConnectionId) (relay : Nat) (peer : Option ApplicationId)
  /-- its application is registered -/
  | enroll (conn : ConnectionId)
  /-- `Connected` is sent -/
  | announce (conn : ConnectionId)
  /-- a leg ends -/
  | hangUp (conn : ConnectionId)
  /-- `Disconnected` is sent -/
  | disconnect (conn : ConnectionId)
  /-- the listener's own `unregister_x11_connection` -/
  | remove (conn : ConnectionId)
  | forget (conn : ConnectionId)
  /-- `destroy_session` takes the connection from `connections` -/
  | destroy (conn : ConnectionId)
  /-- the relay task takes an event -/
  | recv (relay : Nat)
  /-- and goes on with it -/
  | turn (relay : Nat)
  /-- the relay task is over, and its event channel closed -/
  | stop (relay : Nat)
  | hub (a : Action)
  deriving DecidableEq, Repr

namespace Server

def setConn (s : Server) (c : ConnectionId) (k : Conn) : Server := { s with conns := s.conns.put c k }

def setRelay (s : Server) (r : Nat) (relay : Relay) : Server :=
  { s with relays := fun i => if i = r then relay else s.relays i }

/-- An event for the relay task, lost when it is over. -/
def send (s : Server) (r : Nat) (e : Event) : Server :=
  if (s.relays r).alive then
    s.setRelay r { s.relays r with x11Events := (s.relays r).x11Events ++ [e] }
  else s

/-- The connection is taken from `connections`. -/
def unlist (s : Server) (c : ConnectionId) : Server :=
  match s.conns.get c with
  | some k => s.setConn c { k with listed := false }
  | none => s

/-- Its application is registered. -/
def register (s : Server) (c : ConnectionId) (root : Option ApplicationId) : Server :=
  { s with applications := (s.applications.register c root).2 }

/-- It is taken from the applications. -/
def unregister (s : Server) (c : ConnectionId) : Server :=
  { s with applications := (s.applications.unregister c).2 }

/-- The listener's task of the connection goes on from `p`. -/
def advance (s : Server) (c : ConnectionId) (p : Pump) (next : Conn → Server) : Option Server :=
  match s.conns.get c with
  | some k => if k.pump = p then some (next k) else none
  | none => none

/-- The relay task turns to the next thing. -/
def turnTo (s : Server) (r : Nat) (handling : Option (ConnectionId × Turn)) : Server :=
  s.setRelay r { s.relays r with handling := handling }

/-- `handle_x11_event` up to its first lookup. -/
def firstTurn (s : Server) (relay : Relay) : Event → Option (ConnectionId × Turn)
  | .connected c => if relay.perApp then some (c, .joining (s.applications.rootOf c)) else none
  | .disconnected c =>
    some (c, if relay.perApp then .leaving (s.applications.rootOf c) else .removing)

/-- One turn of `handle_x11_event` after that. -/
def nextTurn (s : Server) (r : Nat) (c : ConnectionId) : Turn → Option Server
  | .joining none => some (s.turnTo r none)
  | .joining (some app) => do
    let hub ← s.hub.step (.attach app c (s.relays r).audioClientId)
    some ({ s with hub := hub }.turnTo r none)
  | .leaving none => some (s.turnTo r (some (c, .removing)))
  | .leaving (some app) => do
    let hub ← s.hub.step (.detach app c)
    let next := if hub.detaching.isSome then Turn.finishing else .removing
    some ({ s with hub := hub }.turnTo r (some (c, next)))
  | .finishing => do
    let hub ← s.hub.step .finishDetach
    some ({ s with hub := hub }.turnTo r (some (c, .removing)))
  | .removing => some ((s.unlist c).turnTo r (some (c, .forgetting)))
  | .forgetting => some ((s.unregister c).turnTo r none)

def step (s : Server) : ServerAction → Option Server
  | .accept c r peer =>
    if (s.conns.get c).isSome then none else some (s.setConn c ⟨r, peer, .enrolling, true⟩)
  | .enroll c => s.advance c .enrolling fun k =>
    (s.setConn c { k with pump := .announcing }).register c k.peer
  | .announce c => s.advance c .announcing fun k =>
    if (s.relays k.relay).alive then (s.setConn c { k with pump := .pumping }).send k.relay (.connected c)
    else s.setConn c { k with pump := .removing }
  | .hangUp c => s.advance c .pumping fun k => s.setConn c { k with pump := .ending }
  | .disconnect c => s.advance c .ending fun k =>
    (s.setConn c { k with pump := .removing }).send k.relay (.disconnected c)
  | .remove c => s.advance c .removing fun k =>
    s.setConn c { k with pump := .forgetting, listed := false }
  | .forget c => s.advance c .forgetting fun k => (s.setConn c { k with pump := .gone }).unregister c
  | .destroy c => some (s.unlist c)
  | .recv r =>
    let relay := s.relays r
    match relay.alive, relay.handling, relay.x11Events with
    | true, none, e :: rest =>
      some (s.setRelay r { relay with x11Events := rest, handling := s.firstTurn relay e })
    | _, _, _ => none
  | .turn r =>
    match (s.relays r).handling with
    | some (c, turn) => s.nextTurn r c turn
    | none => none
  | .stop r =>
    let relay := s.relays r
    -- the hub is not locked across an await, so the task does not end between the two looks
    if relay.handling.any fun h => h.2 = .finishing then none
    else some (s.setRelay r { relay with alive := false, x11Events := [], handling := none })
  | .hub a => if a.isSurrounding then (s.hub.step a).map fun hub => { s with hub := hub } else none

/-- Before the first connection; the relay tasks differ in their tier and in their subscription. -/
def init (lanes : Lanes) (perApp : Nat → Bool) (audioClientId : Nat → ConnectionId) : Server :=
  ⟨.empty, .new, fun r => ⟨true, perApp r, audioClientId r, [], none⟩, .init lanes⟩

/-- One of the maps of the session manager still knows the connection. -/
def Registered (s : Server) (c : ConnectionId) : Prop :=
  (s.conns.get c).any Conn.listed = true ∨ (s.applications.rootOf c).isSome = true

instance (s : Server) (c : ConnectionId) : Decidable (s.Registered c) :=
  inferInstanceAs (Decidable (_ ∨ _))

/-- Its `Disconnected` waits at its relay task. -/
def DisconnectPending (s : Server) (c : ConnectionId) : Prop :=
  ∃ k, s.conns.get c = some k ∧ Event.disconnected c ∈ (s.relays k.relay).x11Events

/-- No audio channel outlives its connection: that is still registered, or its `Disconnected` is pending
    and will find the application. -/
def NoOrphans (s : Server) : Prop :=
  ∀ c, s.hub.Tags c →
    s.Registered c ∨ (s.DisconnectPending c ∧ (s.applications.rootOf c).isSome = true)

end Server

end RemoteX11.Audio
