/-
  The whole-desktop mix (`audio/mix.rs`, `MixHub`).

  A step is one turn under the mutex of the hub, by an `attach` or by the recorder task, or one event of
  the surroundings. Between its turns the recorder holds what it has decided: `Recorder` says which turn is
  next. The child, the encoder and the format gate show only in how many packets a chunk completes and in
  whether the start fails. `sent` is only logged, and the task handle serves the `Drop` of the hub, which
  cannot run while the task holds the hub; both are left out.

  `serial`, `added` and `removed` are history.
-/
import RemoteX11.Audio.Hub

namespace RemoteX11.Audio

open RemoteX11.Lib RemoteX11.Protocol RemoteX11.Queue

/-! ## Subscribers -/

structure MixSubscriber where
  conn : ConnectionId
  outbound : Nat
  opened : Bool
  shed : Nat
  /-- number of the subscription, in the order of the attaches -/
  serial : Nat
  deriving DecidableEq, Repr

namespace MixSubscriber

def openFrame (sub : MixSubscriber) : Frame := .json (.channelOpen ⟨sub.conn, .audio, none, none⟩)

/-- The packet for an opened subscriber; the last part of the result says that it is dead. -/
def shipData (seq : UInt32) (packet : Bytes) (lanes : Lanes) (sub : MixSubscriber) :
    Lanes × MixSubscriber × Bool :=
  match lanes.send sub.outbound (.binary (.streamData ⟨sub.conn, seq, packet⟩)) with
  | (.ok (), lanes) => (lanes, sub, false)
  | (.error .full, lanes) => (lanes, { sub with shed := sub.shed + 1 }, false)
  | (.error .closed, lanes) => (lanes, sub, true)

/-- One turn of the loop over the subscribers. -/
def ship (seq : UInt32) (packet : Bytes) (lanes : Lanes) (sub : MixSubscriber) :
    Lanes × MixSubscriber × Bool :=
  if sub.opened then shipData seq packet lanes sub
  else
    match lanes.send sub.outbound sub.openFrame with
    | (.error _, lanes) => (lanes, sub, true)
    | (.ok (), lanes) => shipData seq packet lanes { sub with opened := true }

def shipAll (seq : UInt32) (packet : Bytes) :
    List MixSubscriber → Lanes → Lanes × List (MixSubscriber × Bool)
  | [], lanes => (lanes, [])
  | sub :: rest, lanes =>
    let (lanes, shipped) := ship seq packet lanes sub
    let (lanes, others) := shipAll seq packet rest lanes
    (lanes, shipped :: others)

/-- The subscribers that are kept: the id of none that is dead. -/
def retained (shipped : List (MixSubscriber × Bool)) : List MixSubscriber :=
  let dead := (shipped.filter Prod.snd).map fun r => r.1.conn
  (shipped.map Prod.fst).filter fun sub => !dead.contains sub.conn

/-- `ChannelClose` for the opened subscribers. -/
def closeAll : List MixSubscriber → Lanes → Lanes
  | [], lanes => lanes
  | sub :: rest, lanes =>
    closeAll rest (if sub.opened then (lanes.send sub.outbound (closeFrame sub.conn)).2 else lanes)

end MixSubscriber

/-! ## The hub and its recorder -/

/-- Why a recorder finishes. -/
inductive Ending where
  | startFailed
  | endOfStream
  /-- its subscriber list was empty -/
  | lastListenerLeft
  deriving DecidableEq, Repr

/-- Where the recorder task is. -/
inductive Recorder where
  /-- resolving the command, starting the child and the encoder -/
  | starting
  /-- waiting for the next chunk -/
  | reading
  /-- in a chunk that still completes `left` packets; `stop` is set when the list was empty -/
  | pushing (left : Nat) (stop : Bool)
  /-- about to call `finish(close)` -/
  | finishing (close : Bool) (ending : Ending)
  deriving DecidableEq, Repr

structure Mix where
  subscribers : List MixSubscriber
  running : Bool
  /-- the task that was spawned and has not finished -/
  recorder : Option Recorder
  lanes : Lanes
  /-- the lane of each subscription that an attach added -/
  added : List Nat
  /-- the subscriptions that were removed, by a sweep or by a finish -/
  removed : List (Nat × Option Ending)

namespace Mix

inductive Action where
  | attach (lane : Nat) (conn : ConnectionId)
  /-- no command, no child or no encoder -/
  | startFails
  /-- the recorder counts its listeners -/
  | count
  /-- a chunk that completes `packets` packets -/
  | read (packets : Nat)
  | packet (seq : UInt32) (data : Bytes)
  /-- the chunk is used up -/
  | endPush
  /-- the recorder exited, or its pipe broke -/
  | endOfStream
  | finish
  /-- another sender on the lane -/
  | offer (lane : Nat) (frame : Frame)
  /-- the writer takes the next frame -/
  | take (lane : Nat)
  /-- the writer is gone -/
  | close (lane : Nat)
  deriving DecidableEq, Repr

/-- `attach`. -/
def attach (s : Mix) (lane : Nat) (conn : ConnectionId) : Mix :=
  if s.subscribers.any fun sub => sub.conn == conn then s
  else
    { s with
      subscribers := s.subscribers ++ [⟨conn, lane, false, 0, s.added.length⟩]
      running := true
      recorder := if s.running then s.recorder else some .starting
      added := s.added ++ [lane] }

/-- One encoded packet: the fan-out with its sweep. -/
def packet (s : Mix) (left : Nat) (stop : Bool) (seq : UInt32) (data : Bytes) : Mix :=
  let (lanes, shipped) := MixSubscriber.shipAll seq data s.subscribers s.lanes
  let kept := MixSubscriber.retained shipped
  { s with
    subscribers := kept
    recorder := some (.pushing left (stop || kept.isEmpty))
    lanes := lanes
    removed := s.removed ++ (shipped.filter Prod.snd).map fun r => (r.1.serial, none) }

/-- `finish`. -/
def finish (s : Mix) (close : Bool) (ending : Ending) : Mix :=
  let dropped := if close then s.subscribers else s.subscribers.filter fun sub => !sub.opened
  { s with
    subscribers := if close then [] else s.subscribers.filter fun sub => sub.opened
    running := false
    recorder := none
    lanes := if close then MixSubscriber.closeAll s.subscribers s.lanes else s.lanes
    removed := s.removed ++ dropped.map fun sub => (sub.serial, some ending) }

def step (s : Mix) : Action → Option Mix
  | .attach lane conn => some (s.attach lane conn)
  | .startFails =>
    match s.recorder with
    | some .starting => some { s with recorder := some (.finishing false .startFailed) }
    | _ => none
  | .count =>
    match s.recorder with
    | some .starting =>
      if s.subscribers.isEmpty then
        some { s with recorder := some (.finishing false .lastListenerLeft) }
      else some { s with recorder := some .reading }
    | _ => none
  | .read packets =>
    match s.recorder with
    | some .reading => some { s with recorder := some (.pushing packets false) }
    | _ => none
  | .packet seq data =>
    match s.recorder with
    | some (.pushing (left + 1) stop) => some (s.packet left stop seq data)
    | _ => none
  | .endPush =>
    match s.recorder with
    | some (.pushing 0 true) => some { s with recorder := some (.finishing true .lastListenerLeft) }
    | some (.pushing 0 false) => some { s with recorder := some .reading }
    | _ => none
  | .endOfStream =>
    match s.recorder with
    | some .reading => some { s with recorder := some (.finishing true .endOfStream) }
    | _ => none
  | .finish =>
    match s.recorder with
    | some (.finishing close ending) => some (s.finish close ending)
    | _ => none
  | .offer lane frame => some { s with lanes := (s.lanes.send lane frame).2 }
  | .take lane =>
    let taken := { s.lanes lane with queue := (s.lanes lane).queue.drop 1 }
    some { s with lanes := fun k => if k = lane then taken else s.lanes k }
  | .close lane =>
    let closed := { s.lanes lane with isOpen := false, queue := [] }
    some { s with lanes := fun k => if k = lane then closed else s.lanes k }

/-- `MixHub::new`. -/
def init (lanes : Lanes) : Mix := ⟨[], false, none, lanes, [], []⟩

end Mix

end RemoteX11.Audio
