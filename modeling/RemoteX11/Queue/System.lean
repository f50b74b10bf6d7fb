/-
  Concurrent senders and the receiver of one outbound queue (`queue.rs`).

  `OutboundSender::send` is cut at its atomic accesses: subscribe to the gate, load `inflight`,
  `try_send`, `fetch_add`, and the await on the gate. `send_priority` is a push and a `fetch_add`,
  a receive is a pop and a saturating counter update, and for the bulk lane a `notify_waiters`.
  Dropping the receiver runs `Drop::drop`, which notifies, and only then drops the two channel
  halves. Any number of calls may be in progress and the steps interleave freely.

  A waiter of a `tokio::sync::Notify` that was enabled before `notify_waiters` is woken by it; one
  enabled later is not.
-/
import RemoteX11.Queue.Lanes
import RemoteX11.Lib.Run
import RemoteX11.Lib.Calls

namespace RemoteX11.Queue

open RemoteX11.Lib RemoteX11.Protocol

/-! ## The model -/

/-- Where a `send` call stands. `woken` says that its gate future has been notified. -/
inductive SendPhase where
  /-- subscribed to the gate, about to load `inflight` -/
  | enabled (woken : Bool)
  /-- saw room, about to `try_send` -/
  | admitted (woken : Bool)
  /-- pushed, about to `fetch_add` -/
  | pushed
  /-- awaiting the gate -/
  | parked (woken : Bool)
  | returnedOk
  | returnedErr (frame : Frame)
  /-- the future was dropped at its await -/
  | cancelled
  deriving DecidableEq, Repr

structure SendCall where
  frame : Frame
  phase : SendPhase
  deriving DecidableEq, Repr

namespace SendCall

def size (c : SendCall) : Nat := c.frame.encodedSize

/-- What `notify_waiters` does to a call. -/
def notified (c : SendCall) : SendCall :=
  match c.phase with
  | .enabled _ => { c with phase := .enabled true }
  | .admitted _ => { c with phase := .admitted true }
  | .parked _ => { c with phase := .parked true }
  | _ => c

/-- Bytes pushed on the lane and not yet added to the counter. -/
def unadded (c : SendCall) : Nat :=
  match c.phase with
  | .pushed => c.size
  | _ => 0

end SendCall

/-- Where the receiver stands. -/
inductive RxPhase where
  | idle
  /-- took a bulk frame of this size, about to release it -/
  | popped (size : Nat)
  /-- released, about to notify the gate -/
  | notifying
  /-- took a priority frame, about to release it -/
  | poppedPriority
  /-- `Drop::drop` has notified, both channels are still open -/
  | dropping
  /-- the bulk channel is closed -/
  | bulkClosed
  /-- both channels are closed -/
  | gone
  deriving DecidableEq, Repr

structure State where
  lanes : Lanes
  sends : List SendCall
  /-- `send_priority` calls that have pushed and not yet added -/
  addsDue : Nat
  rx : RxPhase
  deriving DecidableEq, Repr

inductive Action where
  /-- a new call of `send` subscribes to the gate -/
  | start (frame : Frame)
  /-- call `i` makes its next access -/
  | send (i : Nat)
  /-- call `i` is dropped at its await -/
  | cancel (i : Nat)
  | pushPriority (frame : Frame)
  | addBacklog
  | popBulk
  | release
  | notify
  | popPriority
  | releasePriority
  /-- the receiver is dropped -/
  | dropReceiver
  | closeBulk
  | closePriority
  deriving DecidableEq, Repr

/-- `try_send` and every later use of the bulk channel fail once the receiver half is dropped. -/
def RxPhase.closedBulk : RxPhase → Bool
  | .bulkClosed => true
  | .gone => true
  | _ => false

namespace State

def setPhase (s : State) (i : Nat) (c : SendCall) (p : SendPhase) : State :=
  { s with sends := s.sends.set i { c with phase := p } }

/-- `gate.notify_waiters()`. -/
def notifyWaiters (s : State) : State := { s with sends := s.sends.map SendCall.notified }

/-- The next access of a `send` call. -/
def sendStep (s : State) (i : Nat) (c : SendCall) : Option State :=
  match c.phase with
  | .enabled w =>
    if s.lanes.room c.size then some (s.setPhase i c (.admitted w))
    else some (s.setPhase i c (.parked w))
  | .admitted w =>
    if s.rx.closedBulk then some (s.setPhase i c (.returnedErr c.frame))
    else if s.lanes.frameCapacity ≤ s.lanes.bulk.length then some (s.setPhase i c (.parked w))
    else some ({ s with lanes := s.lanes.pushBulk c.frame c.size }.setPhase i c .pushed)
  | .pushed => some ({ s with lanes := s.lanes.addInflight c.size }.setPhase i c .returnedOk)
  | .parked true => some (s.setPhase i c (.enabled false))
  | .parked false => none
  | .returnedOk => none
  | .returnedErr _ => none
  | .cancelled => none

def step (s : State) : Action → Option State
  | .start frame => some { s with sends := s.sends ++ [⟨frame, .enabled false⟩] }
  | .send i =>
    match s.sends[i]? with
    | some c => s.sendStep i c
    | none => none
  | .cancel i =>
    match s.sends[i]? with
    | some ⟨frame, .parked w⟩ => some (s.setPhase i ⟨frame, .parked w⟩ .cancelled)
    | _ => none
  | .pushPriority frame =>
    -- a full lane and a closed one reject the frame and change nothing
    if s.rx = .gone ∨ priorityLaneCapacity ≤ s.lanes.prio.length then some s
    else some { s with lanes := s.lanes.pushPriority frame, addsDue := s.addsDue + 1 }
  | .addBacklog =>
    match s.addsDue with
    | 0 => none
    | n + 1 => some { s with lanes := s.lanes.addBacklog, addsDue := n }
  | .popBulk =>
    match s.rx, s.lanes.bulk with
    | .idle, (_, size) :: rest =>
      some { s with lanes := { s.lanes with bulk := rest }, rx := .popped size }
    | _, _ => none
  | .release =>
    match s.rx with
    | .popped size => some { s with lanes := s.lanes.release size, rx := .notifying }
    | _ => none
  | .notify =>
    match s.rx with
    | .notifying => some { s.notifyWaiters with rx := .idle }
    | _ => none
  | .popPriority =>
    match s.rx, s.lanes.prio with
    | .idle, _ :: rest =>
      some { s with lanes := { s.lanes with prio := rest }, rx := .poppedPriority }
    | _, _ => none
  | .releasePriority =>
    match s.rx with
    | .poppedPriority => some { s with lanes := s.lanes.releasePriority, rx := .idle }
    | _ => none
  | .dropReceiver =>
    match s.rx with
    | .idle => some { s.notifyWaiters with rx := .dropping }
    | _ => none
  | .closeBulk =>
    match s.rx with
    | .dropping => some { s with lanes := { s.lanes with bulk := [] }, rx := .bulkClosed }
    | _ => none
  | .closePriority =>
    match s.rx with
    | .bulkClosed => some { s with lanes := { s.lanes with prio := [] }, rx := .gone }
    | _ => none

/-- A fresh pair. -/
def init (frameCapacity budgetBytes : Nat) : State where
  lanes := outboundChannel frameCapacity budgetBytes
  sends := []
  addsDue := 0
  rx := .idle

end State

end RemoteX11.Queue
