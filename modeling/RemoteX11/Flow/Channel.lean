/-
  One flow-controlled channel: the task that delivers payloads to it, the pump that writes them out,
  the gauge between the two, and the advertisement of its edges.

  Server: `deliver_charged`, `advertise_edge` and `re_advertise` (`relay/connection.rs`) and
  `relay_to_socket` (`x11_listener.rs`). Client: `send_data_to_local` and the downlink of
  `pump_local_x11_connection` (`proxy.rs`), `advertise_edge` and `re_advertise` (`serve/mod.rs`).
  The two sides differ in two places: the server charges a payload before it enqueues it and the
  client after, and the server's pump puts the resume frame on the priority lane itself before it
  reports the edge.

  One task delivers, processes reports and runs the ticks, one after the other; the pump runs beside
  it. Each step is one access to something both can see.
-/
import RemoteX11.Flow.Meter
import RemoteX11.Lib.Run

namespace RemoteX11.Flow

open RemoteX11.Lib RemoteX11.Protocol

inductive Side where
  | server
  | client
  deriving DecidableEq, Repr

/-- `CHANNEL_BUFFER`: the payload queue of a channel. -/
def channelBuffer : Nat := 2048

/-- What the delivering task is about to do. -/
inductive Delivery where
  | idle
  /-- add the payload to `pending` -/
  | charging (data : Bytes)
  /-- the gauge is over `high`: try to latch it -/
  | latching (data : Bytes)
  /-- the latch was taken: record and send the pause -/
  | advertising (data : Bytes)
  /-- put the payload on the channel's queue -/
  | enqueueing (data : Bytes)
  /-- the channel is gone: take the charge back -/
  | retracting (size : Nat)
  /-- the charge was taken back with this much left: look at the latch -/
  | retracted (after : Nat)
  /-- open the latch, the edge is ignored -/
  | retractUnlatching
  /-- a tick found the channel advertised as paused and its gauge open: record the resume -/
  | reconciling
  /-- send what `due` returns -/
  | restating
  deriving DecidableEq, Repr

/-- What the pump is about to do. -/
inductive Pump where
  | idle
  | writing (data : Bytes)
  | discharging (size : Nat)
  /-- the discharge left this much: look at the latch -/
  | drained (after : Nat)
  | unlatching
  /-- the latch was opened: send the resume frame (server) -/
  | resuming
  /-- report the resume to the delivering task -/
  | reporting
  | stopped
  deriving DecidableEq, Repr

/-- Payload bytes the pump has taken and not discharged. -/
def Pump.unsettled : Pump → Nat
  | .writing data => data.length
  | .discharging size => size
  | _ => 0

structure Channel where
  meter : FlowMeter
  queue : List Bytes
  delivery : Delivery
  pump : Pump
  advertiser : Advertiser
  /-- resume reports of this channel in the report channel -/
  reports : Nat
  /-- the flow-control frames handed to the priority lane -/
  emitted : List FlowEdge
  /-- payload bytes charged, and discharged, since the channel was opened -/
  charged : Nat
  discharged : Nat
  deriving DecidableEq, Repr

inductive ChannelAction where
  /-- a payload for the channel arrives at the delivering task -/
  | deliver (data : Bytes)
  /-- the delivering task's next step -/
  | delivery
  /-- the pump's next step -/
  | pump
  /-- the report channel is full -/
  | loseReport
  /-- a write fails, or the pump is told to close -/
  | stopPump
  /-- the delivering task takes a resume report -/
  | report
  | tick
  /-- `reset_flow_for_display` -/
  | reset
  /-- an edge of another channel is advertised -/
  | other (edge : FlowEdge)
  deriving DecidableEq, Repr

namespace Channel

/-- `advertise_edge`. -/
def advertise (s : Channel) (edge : FlowEdge) : Channel :=
  { s with
    advertiser := (s.advertiser.record edge).2
    emitted := s.emitted ++ if (s.advertiser.record edge).1 then [edge] else [] }

/-- `pending` as `discharge` updates it. -/
def subPending (s : Channel) (size : Nat) : Channel :=
  { s with
    meter := s.meter.sub size
    discharged := s.discharged + size }

/-- Where a payload goes once it is charged and any edge is advertised. -/
def afterCharge (side : Side) (data : Bytes) : Delivery :=
  match side with
  | .server => .enqueueing data
  | .client => .idle

/-- The next step of the delivering task. -/
def deliveryStep (side : Side) (id : ConnectionId) (s : Channel) : Option Channel :=
  match s.delivery with
  | .idle => none
  | .charging data =>
    let s' := { s with meter := s.meter.add data.length, charged := s.charged + data.length }
    if s'.meter.high ≤ s'.meter.pending then some { s' with delivery := .latching data }
    else some { s' with delivery := afterCharge side data }
  | .latching data =>
    if s.meter.latch.1 then some { s with meter := s.meter.latch.2, delivery := .advertising data }
    else some { s with delivery := afterCharge side data }
  | .advertising data => some { s.advertise (.pause id) with delivery := afterCharge side data }
  | .enqueueing data =>
    match s.pump, side with
    | .stopped, .server => some { s with delivery := .retracting data.length }
    | .stopped, .client => some { s with delivery := .idle }
    | _, side =>
      if s.queue.length < channelBuffer then
        match side with
        | .server => some { s with queue := s.queue ++ [data], delivery := .idle }
        | .client => some { s with queue := s.queue ++ [data], delivery := .charging data }
      else none
  | .retracting size =>
    some { s.subPending size with delivery := .retracted (s.meter.pending - size) }
  | .retracted after =>
    if s.meter.latched ∧ after ≤ s.meter.low then some { s with delivery := .retractUnlatching }
    else some { s with delivery := .idle }
  | .retractUnlatching => some { s with meter := s.meter.unlatch.2, delivery := .idle }
  | .reconciling => some { s.advertise (.resume id) with delivery := .restating }
  | .restating =>
    some { s with
      advertiser := s.advertiser.due.2
      emitted := s.emitted ++ s.advertiser.due.1
      delivery := .idle }

/-- The next step of the pump. -/
def pumpStep (side : Side) (id : ConnectionId) (s : Channel) : Option Channel :=
  match s.pump with
  | .idle =>
    match s.queue with
    | [] => none
    | data :: rest => some { s with queue := rest, pump := .writing data }
  | .writing data => some { s with pump := .discharging data.length }
  | .discharging size => some { s.subPending size with pump := .drained (s.meter.pending - size) }
  | .drained after =>
    if s.meter.latched ∧ after ≤ s.meter.low then some { s with pump := .unlatching }
    else some { s with pump := .idle }
  | .unlatching =>
    if s.meter.unlatch.1 then
      match side with
      | .server => some { s with meter := s.meter.unlatch.2, pump := .resuming }
      | .client => some { s with meter := s.meter.unlatch.2, pump := .reporting }
    else some { s with pump := .idle }
  | .resuming => some { s with emitted := s.emitted ++ [.resume id], pump := .reporting }
  | .reporting => some { s with reports := s.reports + 1, pump := .idle }
  | .stopped => none

def step (side : Side) (id : ConnectionId) (s : Channel) : ChannelAction → Option Channel
  | .deliver data =>
    match s.delivery, side with
    | .idle, .server => some { s with delivery := .charging data }
    | .idle, .client => some { s with delivery := .enqueueing data }
    | _, _ => none
  | .delivery => s.deliveryStep side id
  | .pump => s.pumpStep side id
  | .loseReport =>
    match s.pump with
    | .reporting => some { s with pump := .idle }
    | _ => none
  | .stopPump =>
    -- the queued payloads are dropped with the receiver
    match s.pump with
    | .idle => some { s with queue := [], pump := .stopped }
    | .writing _ => some { s with queue := [], pump := .stopped }
    | _ => none
  | .report =>
    match s.delivery, s.reports with
    | .idle, n + 1 => some { s.advertise (.resume id) with reports := n }
    | _, _ => none
  | .tick =>
    match s.delivery with
    | .idle =>
      if s.advertiser.isPaused id ∧ s.meter.latched = false then
        some { s with delivery := .reconciling }
      else some { s with delivery := .restating }
    | _ => none
  | .reset =>
    match side with
    | .server => some { s with meter := s.meter.reset }
    | .client => none
  | .other edge => if edge.connectionId = id then none else some (s.advertise edge)

/-- A channel that has just been opened. -/
def init (high low : Nat) : Channel where
  meter := .new high low
  queue := []
  delivery := .idle
  pump := .idle
  advertiser := .empty
  reports := 0
  emitted := []
  charged := 0
  discharged := 0

/-- The channel queue is empty, the pump is idle and no delivery is in progress. -/
def Quiet (s : Channel) : Prop := s.queue = [] ∧ s.pump = .idle ∧ s.delivery = .idle

/-- Nothing is pending and the gauge is open. -/
def Clear (s : Channel) : Prop := s.meter.pending = 0 ∧ s.meter.latched = false

/-- Payload bytes on the queue. -/
def queuedBytes (s : Channel) : Nat := (s.queue.map List.length).sum

end Channel

end RemoteX11.Flow
