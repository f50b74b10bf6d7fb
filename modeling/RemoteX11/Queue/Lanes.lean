/-
  The two lanes of an outbound queue and its atomic counters (`queue.rs`, `QueueState` and the two
  `mpsc` channels of `outbound_channel`).

  Every operation here is one atomic access: a channel push or pop, or one counter update. Which
  task makes it, and what may happen between two of them, is said in `Queue.System` and
  `Transport.Drain`.
-/
import RemoteX11.Protocol.Frame

namespace RemoteX11.Queue

open RemoteX11.Lib RemoteX11.Protocol

/-- `PRIORITY_LANE_CAPACITY`. -/
def priorityLaneCapacity : Nat := 512

/-- The bulk lane holds each frame with the size it is charged for. -/
structure Lanes where
  bulk : List (Frame × Nat)
  prio : List Frame
  inflight : Nat
  priorityBacklog : Nat
  budget : Nat
  frameCapacity : Nat
  deriving DecidableEq, Repr

/-- `outbound_channel`. -/
def outboundChannel (frameCapacity budgetBytes : Nat) : Lanes where
  bulk := []
  prio := []
  inflight := 0
  priorityBacklog := 0
  budget := max budgetBytes 1
  frameCapacity := frameCapacity

namespace Lanes

/-- The budget check of `send`: a frame larger than the budget is let through when nothing is in
    flight. -/
def room (q : Lanes) (size : Nat) : Bool :=
  q.inflight == 0 || q.inflight + size ≤ q.budget

def pushBulk (q : Lanes) (frame : Frame) (size : Nat) : Lanes :=
  { q with bulk := q.bulk ++ [(frame, size)] }

def addInflight (q : Lanes) (size : Nat) : Lanes :=
  { q with inflight := q.inflight + size }

def pushPriority (q : Lanes) (frame : Frame) : Lanes :=
  { q with prio := q.prio ++ [frame] }

def addBacklog (q : Lanes) : Lanes :=
  { q with priorityBacklog := q.priorityBacklog + 1 }

/-- The counter half of `release`: `saturating_sub`. -/
def release (q : Lanes) (size : Nat) : Lanes :=
  { q with inflight := q.inflight - size }

/-- `release_priority`. -/
def releasePriority (q : Lanes) : Lanes :=
  { q with priorityBacklog := q.priorityBacklog - 1 }

/-- `priority_pending`. -/
def priorityPending (q : Lanes) : Bool := 0 < q.priorityBacklog

/-- The bytes the frames of the bulk lane are charged for. -/
def queuedBytes (q : Lanes) : Nat := (q.bulk.map Prod.snd).sum

end Lanes

end RemoteX11.Queue
