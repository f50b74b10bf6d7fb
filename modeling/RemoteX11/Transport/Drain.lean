/-
  The writer task of a connection (`transport.rs`, `drain_frames`).

  The task waits on both lanes, coalesces bulk frames into one batch, and writes the batch in chunks
  of 64 KiB, taking the priority lane before each chunk. Its steps are the points at which it looks
  at the queue: one `recv_any`, one turn of the coalescing loop, one turn of the commit loop. Frames
  arrive and counters move between any two of them.

  The commit chunks are cut by length alone, so a priority frame found between two chunks is written
  wherever the cut fell. `drain_writes_whole_frames`: in every run in which such a frame is only ever
  found between two frames of the batch, what is on the socket is whole frames of both lanes, each
  lane in order, and the other end receives exactly these.
-/
import RemoteX11.Transport.Recv
import RemoteX11.Queue.Lanes
import RemoteX11.Lib.Run

namespace RemoteX11.Transport

open RemoteX11.Lib RemoteX11.Protocol RemoteX11.Queue

/-- `OUTBOUND_BATCH_FRAMES`. -/
def outboundBatchFrames : Nat := 64

/-- `OUTBOUND_BATCH_BYTES`. -/
def outboundBatchBytes : Nat := 256 * 1024

/-- `OUTBOUND_WRITE_CHUNK`. -/
def outboundWriteChunk : Nat := 64 * 1024

/-! ## The model -/

inductive DrainPhase where
  /-- in `recv_any` -/
  | waiting
  /-- in the coalescing loop: the frames of the batch and their bytes -/
  | coalescing (frames : List Frame) (batch : Bytes)
  /-- in the commit loop: the frames of the batch, its bytes that are not written yet, and whether
      an encode failed -/
  | committing (frames : List Frame) (remaining : Bytes) (failed : Bool)
  | finished
  deriving DecidableEq, Repr

/-- The queue as the task sees it, the socket, and the history of both lanes. -/
structure Drain where
  lanes : Lanes
  /-- every `OutboundSender` is gone -/
  closed : Bool
  priorityDone : Bool
  phase : DrainPhase
  /-- the bytes written to the socket -/
  out : Bytes
  queuedBulk : List Frame
  queuedPriority : List Frame
  takenBulk : List Frame
  takenPriority : List Frame
  deriving DecidableEq, Repr

/-- How a write ends: all of it, or an error after the first `k` bytes. -/
abbrev Write := Option Nat

def Write.accepted (w : Write) (data : Bytes) : Bytes :=
  match w with
  | none => data
  | some k => data.take k

inductive DrainAction where
  | pushBulk (frame : Frame)
  | addInflight (size : Nat)
  | pushPriority (frame : Frame)
  | addBacklog
  /-- the last sender is dropped -/
  | close
  | recvAny (w : Write)
  | coalesce
  | commit (w : Write)
  deriving DecidableEq, Repr

namespace Drain

/-- Take a frame from the priority lane. -/
def popPriority (s : Drain) (p : Frame) (rest : List Frame) : Drain :=
  { s with
    lanes := { s.lanes with prio := rest }.releasePriority
    takenPriority := s.takenPriority ++ [p] }

/-- Take a frame from the bulk lane. -/
def popBulk (s : Drain) (f : Frame) (size : Nat) (rest : List (Frame × Nat)) : Drain :=
  { s with
    lanes := { s.lanes with bulk := rest }.release size
    takenBulk := s.takenBulk ++ [f] }

/-- `send_raw`: the task goes on in `next` when the write succeeds. -/
def sendRaw (s : Drain) (w : Write) (data : Bytes) (next : DrainPhase) : Drain :=
  { s with
    out := s.out ++ w.accepted data
    phase := if w = none then next else .finished }

/-- The bulk half of `recv_any`: a frame opens a batch, a closed and empty lane ends the task. -/
def pollBulk (S : Serde) (s : Drain) : Option Drain :=
  match s.lanes.bulk with
  | (f, size) :: rest =>
    match f.encodeInto S [] with
    | (.ok (), batch) => some { s.popBulk f size rest with phase := .coalescing [f] batch }
    | (.error _, _) => some { s.popBulk f size rest with phase := .finished }
  | [] => if s.closed then some { s with phase := .finished } else none

/-- One `recv_any` and what follows it up to the next look at the queue. -/
def recvAny (S : Serde) (s : Drain) (w : Write) : Option Drain :=
  match s.priorityDone, s.lanes.prio with
  | false, p :: rest =>
    match p.encodeInto S [] with
    | (.ok (), batch) => some ((s.popPriority p rest).sendRaw w batch .waiting)
    | (.error _, batch) => some ((s.popPriority p rest).sendRaw w batch .finished)
  | priorityDone, prio =>
    -- a closed and empty priority lane is not polled again
    pollBulk S { s with priorityDone := priorityDone || (s.closed && prio.isEmpty) }

/-- One turn of the coalescing loop. -/
def coalesce (S : Serde) (s : Drain) (frames : List Frame) (batch : Bytes) : Drain :=
  if frames.length < outboundBatchFrames ∧ batch.length < outboundBatchBytes ∧
      s.lanes.priorityPending = false then
    match s.lanes.bulk with
    | (f, size) :: rest =>
      match f.encodeInto S batch with
      | (.ok (), batch) =>
        { s.popBulk f size rest with phase := .coalescing (frames ++ [f]) batch }
      | (.error _, batch) => { s.popBulk f size rest with phase := .committing frames batch true }
    | [] => { s with phase := .committing frames batch false }
  else { s with phase := .committing frames batch false }

/-- One turn of the commit loop: a priority frame if there is one, else the next chunk. -/
def commit (S : Serde) (s : Drain) (w : Write) (frames : List Frame) (remaining : Bytes)
    (failed : Bool) : Drain :=
  if remaining = [] then { s with phase := if failed then .finished else .waiting }
  else
    match s.lanes.prio with
    | p :: rest =>
      match p.encodeInto S [] with
      | (.ok (), scratch) =>
        (s.popPriority p rest).sendRaw w scratch (.committing frames remaining failed)
      | (.error _, _) => { s.popPriority p rest with phase := .finished }
    | [] =>
      if failed then { s with phase := .finished }
      else s.sendRaw w (remaining.take outboundWriteChunk)
        (.committing frames (remaining.drop outboundWriteChunk) failed)

def step (S : Serde) (s : Drain) : DrainAction → Option Drain
  | .pushBulk f =>
    if s.closed then none
    else some { s with
      lanes := s.lanes.pushBulk f f.encodedSize
      queuedBulk := s.queuedBulk ++ [f] }
  | .addInflight size => some { s with lanes := s.lanes.addInflight size }
  | .pushPriority f =>
    if s.closed then none
    else some { s with
      lanes := s.lanes.pushPriority f
      queuedPriority := s.queuedPriority ++ [f] }
  | .addBacklog => some { s with lanes := s.lanes.addBacklog }
  | .close => some { s with closed := true }
  | .recvAny w =>
    match s.phase with
    | .waiting => s.recvAny S w
    | _ => none
  | .coalesce =>
    match s.phase with
    | .coalescing frames batch => some (s.coalesce S frames batch)
    | _ => none
  | .commit w =>
    match s.phase with
    | .committing frames remaining failed => some (s.commit S w frames remaining failed)
    | _ => none

/-- `drain_frames` on a fresh queue. -/
def init (frameCapacity budgetBytes : Nat) : Drain where
  lanes := outboundChannel frameCapacity budgetBytes
  closed := false
  priorityDone := false
  phase := .waiting
  out := []
  queuedBulk := []
  queuedPriority := []
  takenBulk := []
  takenPriority := []

/-! ## What is on the socket -/

inductive Lane where
  | bulk
  | priority
  deriving DecidableEq, Repr

/-- The frames of one lane, in the order of `sent`. -/
def framesOf (lane : Lane) (sent : List (Lane × Frame)) : List Frame :=
  (sent.filter fun x => x.1 = lane).map Prod.snd

/-- The batch bytes that are not on the socket yet. -/
def unwritten (s : Drain) : Bytes :=
  match s.phase with
  | .waiting => []
  | .coalescing _ batch => batch
  | .committing _ remaining _ => remaining
  | .finished => []

/-- The task is between two batches. -/
def AtRest (s : Drain) : Prop := s.phase = .waiting ∨ s.phase = .finished

instance (s : Drain) : Decidable s.AtRest := inferInstanceAs (Decidable (_ ∨ _))

/-- The socket holds the frames `sent` and then `part`, the written beginning of the bulk frames
    `rest`; every dequeued frame is in `sent` or in `rest`, once and in the order of its lane. -/
structure OnSocket (S : Serde) (s : Drain) (sent : List (Lane × Frame)) (rest : List Frame)
    (part : Bytes) : Prop where
  out : s.out = wire S (sent.map Prod.snd) ++ part
  part : part ++ s.unwritten = wire S rest
  bulk : framesOf .bulk sent ++ rest = s.takenBulk
  priority : framesOf .priority sent = s.takenPriority

/-- Between two batches the socket holds whole frames only, and nothing is pending. -/
def WholeFrames (S : Serde) (s : Drain) (sent : List (Lane × Frame)) : Prop :=
  ∃ rest part, OnSocket S s sent rest part ∧ (s.AtRest → rest = [] ∧ part = [])

/-- The lanes are taken from in the order they are filled. -/
def InOrder (s : Drain) : Prop :=
  s.takenBulk ++ s.lanes.bulk.map Prod.fst = s.queuedBulk ∧
    s.takenPriority ++ s.lanes.prio = s.queuedPriority

/-- However the written bytes are cut into reads, the other end receives the frames `sent`. -/
def Received (S : Serde) (s : Drain) (sent : List (Lane × Frame)) : Prop :=
  ∀ reads : List Bytes, (∀ b ∈ reads, b ≠ []) → reads.flatten = s.out →
    recvFrames S (sent.length + 1) [] (reads.map .ok) =
      sent.map (fun x => .ok x.2) ++ [.error .connectionClosed]

/-! ## The schedules -/

/-- Every frame encodes and no write fails. -/
def Undisturbed (S : Serde) (_s : Drain) (a : DrainAction) : Prop :=
  match a with
  | .pushBulk f => Encodes S f
  | .pushPriority f => Encodes S f
  | .recvAny w => w = none
  | .commit w => w = none
  | _ => True

/-- A priority frame that the commit loop finds is found between two frames of the batch. -/
def PollsAtBoundary (S : Serde) (s : Drain) (a : DrainAction) : Prop :=
  match a, s.phase with
  | .commit _, .committing frames remaining _ =>
    remaining = [] ∨ s.lanes.prio = [] ∨
      ∃ k ≤ frames.length,
        (wire S (frames.take k)).length + remaining.length = (wire S frames).length
  | _, _ => True

/-- The two conditions together. -/
def Scheduled (S : Serde) (s : Drain) (a : DrainAction) : Prop :=
  s.Undisturbed S a ∧ s.PollsAtBoundary S a

/-! ## The invariant -/

/-- What each phase adds to `OnSocket`. -/
def Pending (s : Drain) (rest : List Frame) (part : Bytes) : Prop :=
  match s.phase with
  | .waiting => rest = [] ∧ part = []
  | .coalescing frames _ => rest = frames ∧ part = []
  | .committing frames _ failed => failed = false ∧ ∃ done, frames = done ++ rest
  | .finished => rest = [] ∧ part = []

/-- The queue side: lanes in order, and every frame in them encodes. -/
structure Queued (S : Serde) (s : Drain) : Prop where
  inOrder : s.InOrder
  bulkEncodes : ∀ f ∈ s.queuedBulk, Encodes S f
  prioEncodes : ∀ f ∈ s.queuedPriority, Encodes S f

def Inv (S : Serde) (s : Drain) : Prop :=
  s.Queued S ∧ ∃ sent rest part, OnSocket S s sent rest part ∧ s.Pending rest part

theorem framesOf_append (lane : Lane) (l m : List (Lane × Frame)) :
    framesOf lane (l ++ m) = framesOf lane l ++ framesOf lane m := by
  simp [framesOf]

theorem framesOf_bulk_map (fs : List Frame) :
    framesOf .bulk (fs.map fun f => (Lane.bulk, f)) = fs := by
  simp [framesOf, List.filter_map, Function.comp_def]

theorem framesOf_priority_map (fs : List Frame) :
    framesOf .priority (fs.map fun f => (Lane.bulk, f)) = [] := by
  simp [framesOf, List.filter_map, Function.comp_def]

theorem map_snd_bulk (fs : List Frame) :
    (fs.map fun f => (Lane.bulk, f)).map Prod.snd = fs := by
  simp [Function.comp_def]

theorem encodeInto_of_encodes {S : Serde} {f : Frame} (h : Encodes S f) (out : Bytes) :
    f.encodeInto S out = (.ok (), out ++ wire S [f]) := by
  obtain ⟨p, hp, hw⟩ := wire_cons_of_encodes h []
  rw [encodeInto_eq, hp, hw, wire_nil, List.append_nil]

/-- Frames of the batch that are written in full join `sent`. -/
theorem OnSocket.advance {S : Serde} {s : Drain} {sent : List (Lane × Frame)}
    {fs rest : List Frame} {part : Bytes} (h : OnSocket S s sent (fs ++ rest) part)
    (hpart : part = wire S fs) :
    OnSocket S s (sent ++ fs.map fun f => (Lane.bulk, f)) rest [] := by
  refine ⟨?_, ?_, ?_, ?_⟩
  · rw [h.out, hpart, List.map_append, map_snd_bulk, wire_append, List.append_nil]
  · have := h.part
    rw [hpart, wire_append] at this
    simpa using List.append_cancel_left this
  · rw [framesOf_append, framesOf_bulk_map, List.append_assoc, h.bulk]
  · rw [framesOf_append, framesOf_priority_map, List.append_nil, h.priority]

/-- A priority frame written where no frame is open joins `sent`. -/
theorem OnSocket.priorityFrame {S : Serde} {s : Drain} {sent : List (Lane × Frame)}
    {rest rest' : List Frame} {p : Frame} {next : DrainPhase} (h : OnSocket S s sent rest [])
    (hnext : ({ s with phase := next } : Drain).unwritten = s.unwritten) :
    OnSocket S ((s.popPriority p rest').sendRaw none (wire S [p]) next)
      (sent ++ [(Lane.priority, p)]) rest [] := by
  refine ⟨?_, ?_, ?_, ?_⟩
  · simp only [sendRaw, popPriority, Write.accepted]
    rw [h.out, List.map_append, wire_append, List.append_nil, List.append_nil]
    rfl
  · have := h.part
    rw [← hnext] at this
    exact this
  · rw [framesOf_append]
    simpa [framesOf, sendRaw, popPriority] using h.bulk
  · rw [framesOf_append, h.priority]
    simp [framesOf, sendRaw, popPriority]

/-- A batch written up to a frame boundary is written up to a boundary of the frames that are
    left. -/
theorem boundary_part {S : Serde} {frames done rest : List Frame} {part remaining : Bytes} {k : Nat}
    (hframes : frames = done ++ rest) (hpart : part ++ remaining = wire S rest)
    (hk : (wire S (frames.take k)).length + remaining.length = (wire S frames).length) :
    ∃ j, part = wire S (rest.take j) := by
  have hrest : (wire S rest).length = part.length + remaining.length := by
    rw [← hpart, List.length_append]
  subst hframes
  rw [wire_append, List.length_append, hrest] at hk
  rcases Nat.le_total k done.length with hle | hle
  · -- the boundary is not past the frames already accounted for, so nothing was written since
    have hsplit : (wire S done).length =
        (wire S (done.take k)).length + (wire S (done.drop k)).length := by
      rw [← List.length_append, ← wire_append, List.take_append_drop]
    rw [List.take_append_of_le_length hle] at hk
    have hzero : part = [] := List.eq_nil_of_length_eq_zero (by omega)
    exact ⟨0, by rw [hzero]; rfl⟩
  · refine ⟨k - done.length, ?_⟩
    rw [List.take_append, List.take_of_length_le hle, wire_append, List.length_append] at hk
    have hsplit : part ++ remaining =
        wire S (rest.take (k - done.length)) ++ wire S (rest.drop (k - done.length)) := by
      rw [hpart, ← wire_append, List.take_append_drop]
    exact (List.append_inj hsplit (by omega)).1

/-! ## One step -/

/-- The invariant sees the lanes, the phase, the socket and the history; the counters, the closed
    flag and `priority_done` may move freely. -/
theorem Inv.of_counters {S : Serde} {s : Drain} (hI : s.Inv S) (inflight priorityBacklog : Nat)
    (closed priorityDone : Bool) :
    Inv S { s with
      lanes := { s.lanes with inflight := inflight, priorityBacklog := priorityBacklog }
      closed := closed
      priorityDone := priorityDone } := by
  obtain ⟨hq, sent, rest, part, hsock, hpend⟩ := hI
  exact ⟨⟨hq.inOrder, hq.bulkEncodes, hq.prioEncodes⟩, sent, rest, part,
    ⟨hsock.out, hsock.part, hsock.bulk, hsock.priority⟩, hpend⟩

theorem Queued.popBulk {S : Serde} {s : Drain} {f : Frame} {size : Nat}
    {rest : List (Frame × Nat)} (h : s.Queued S) (hb : s.lanes.bulk = (f, size) :: rest) :
    (s.popBulk f size rest).Queued S ∧ Encodes S f := by
  obtain ⟨⟨hbulk, hprio⟩, hbe, hpe⟩ := h
  have hf : f ∈ s.queuedBulk := by rw [← hbulk, hb]; simp
  refine ⟨⟨⟨?_, hprio⟩, hbe, hpe⟩, hbe f hf⟩
  show (s.takenBulk ++ [f]) ++ rest.map Prod.fst = s.queuedBulk
  rw [← hbulk, hb]
  simp

theorem Queued.popPriority {S : Serde} {s : Drain} {p : Frame} {rest : List Frame}
    (h : s.Queued S) (hp : s.lanes.prio = p :: rest) :
    (s.popPriority p rest).Queued S ∧ Encodes S p := by
  obtain ⟨⟨hbulk, hprio⟩, hbe, hpe⟩ := h
  have hf : p ∈ s.queuedPriority := by rw [← hprio, hp]; simp
  refine ⟨⟨⟨hbulk, ?_⟩, hbe, hpe⟩, hpe p hf⟩
  show (s.takenPriority ++ [p]) ++ rest = s.queuedPriority
  rw [← hprio, hp]
  simp

theorem pollBulk_inv {S : Serde} {s t : Drain} (hI : s.Inv S) (hphase : s.phase = .waiting)
    (h : s.pollBulk S = some t) : t.Inv S := by
  obtain ⟨hq, sent, rest, part, hsock, hpend⟩ := hI
  unfold Pending at hpend
  rw [hphase] at hpend
  obtain ⟨rfl, rfl⟩ := hpend
  unfold pollBulk at h
  split at h
  · -- a bulk frame opens a batch
    rename_i f size brest hbulk
    obtain ⟨hq', henc⟩ := hq.popBulk hbulk
    rw [encodeInto_of_encodes henc] at h
    obtain rfl := Option.some.inj h
    refine ⟨⟨hq'.inOrder, hq'.bulkEncodes, hq'.prioEncodes⟩, sent, [f], [],
      ⟨hsock.out, rfl, ?_, hsock.priority⟩, rfl, rfl⟩
    have := hsock.bulk
    rw [List.append_nil] at this
    rw [this]
    rfl
  · split at h
    · obtain rfl := Option.some.inj h
      exact ⟨⟨hq.inOrder, hq.bulkEncodes, hq.prioEncodes⟩, sent, [], [],
        ⟨hsock.out, rfl, hsock.bulk, hsock.priority⟩, rfl, rfl⟩
    · contradiction

theorem recvAny_inv {S : Serde} {s t : Drain} (hI : s.Inv S) (hphase : s.phase = .waiting)
    (h : s.recvAny S none = some t) : t.Inv S := by
  unfold recvAny at h
  split at h
  · -- a priority frame goes out alone
    rename_i p prest hdone hprio
    obtain ⟨hq, sent, rest, part, hsock, hpend⟩ := hI
    unfold Pending at hpend
    rw [hphase] at hpend
    obtain ⟨rfl, rfl⟩ := hpend
    have hun : s.unwritten = [] := by rw [unwritten, hphase]
    obtain ⟨hq', henc⟩ := hq.popPriority hprio
    rw [encodeInto_of_encodes henc] at h
    obtain rfl := Option.some.inj h
    exact ⟨⟨hq'.inOrder, hq'.bulkEncodes, hq'.prioEncodes⟩, _, [], [],
      hsock.priorityFrame (by rw [hun]; rfl), rfl, rfl⟩
  · have hpolled := hI.of_counters s.lanes.inflight s.lanes.priorityBacklog s.closed
      (s.priorityDone || (s.closed && s.lanes.prio.isEmpty))
    exact pollBulk_inv hpolled hphase h

theorem coalesce_inv {S : Serde} {s : Drain} {frames : List Frame} {batch : Bytes}
    (hI : s.Inv S) (hphase : s.phase = .coalescing frames batch) :
    (s.coalesce S frames batch).Inv S := by
  obtain ⟨hq, sent, rest, part, hsock, hpend⟩ := hI
  unfold Pending at hpend
  rw [hphase] at hpend
  obtain ⟨rfl, rfl⟩ := hpend
  have hbatch : batch = wire S rest := by
    have := hsock.part
    rwa [unwritten, hphase, List.nil_append] at this
  have hcommit : Inv S { s with phase := .committing rest batch false } :=
    ⟨⟨hq.inOrder, hq.bulkEncodes, hq.prioEncodes⟩, sent, rest, [],
      ⟨hsock.out, hbatch, hsock.bulk, hsock.priority⟩, rfl, [], rfl⟩
  unfold coalesce
  split
  · split
    · rename_i f size brest hbulk
      obtain ⟨hq', henc⟩ := hq.popBulk hbulk
      rw [encodeInto_of_encodes henc]
      refine ⟨⟨hq'.inOrder, hq'.bulkEncodes, hq'.prioEncodes⟩, sent, rest ++ [f], [],
        ⟨hsock.out, ?_, ?_, hsock.priority⟩, rfl, rfl⟩
      · rw [wire_append, ← hbatch]
        rfl
      · rw [← List.append_assoc, hsock.bulk]
        rfl
    · exact hcommit
  · exact hcommit

theorem commit_inv {S : Serde} {s : Drain} {frames : List Frame} {remaining : Bytes} {failed : Bool}
    (hI : s.Inv S) (hphase : s.phase = .committing frames remaining failed)
    (hb : s.PollsAtBoundary S (.commit none)) :
    (s.commit S none frames remaining failed).Inv S := by
  obtain ⟨hq, sent, rest, part, hsock, hpend⟩ := hI
  unfold Pending at hpend
  rw [hphase] at hpend
  obtain ⟨rfl, done, hframes⟩ := hpend
  have hun : s.unwritten = remaining := by rw [unwritten, hphase]
  have hpart : part ++ remaining = wire S rest := by rw [← hun]; exact hsock.part
  unfold commit
  by_cases hrem : remaining = []
  · -- the batch is written: its last frames are whole
    rw [if_pos hrem]
    subst hrem
    have hall : OnSocket S s (sent ++ rest.map fun f => (Lane.bulk, f)) [] [] :=
      OnSocket.advance (by rw [List.append_nil]; exact hsock)
        (by rwa [List.append_nil] at hpart)
    exact ⟨⟨hq.inOrder, hq.bulkEncodes, hq.prioEncodes⟩, _, [], [],
      ⟨hall.out, rfl, hall.bulk, hall.priority⟩, rfl, rfl⟩
  · rw [if_neg hrem]
    split
    · rename_i p prest hprio
      obtain ⟨hq', henc⟩ := hq.popPriority hprio
      rw [encodeInto_of_encodes henc]
      unfold PollsAtBoundary at hb
      rw [hphase] at hb
      obtain ⟨k, -, hk⟩ : ∃ k ≤ frames.length,
          (wire S (frames.take k)).length + remaining.length = (wire S frames).length := by
        rcases hb with h | h | h
        · exact absurd h hrem
        · rw [hprio] at h; cases h
        · exact h
      obtain ⟨j, hj⟩ := boundary_part hframes hpart hk
      have hsock' : OnSocket S s sent (rest.take j ++ rest.drop j) part := by
        rw [List.take_append_drop]
        exact hsock
      have hadv := hsock'.advance hj
      refine ⟨⟨hq'.inOrder, hq'.bulkEncodes, hq'.prioEncodes⟩, _, rest.drop j, [],
        hadv.priorityFrame (by rw [hun]; rfl), rfl, done ++ rest.take j, ?_⟩
      rw [List.append_assoc, List.take_append_drop, hframes]
    · -- the next chunk: more of `rest` is on the socket
      refine ⟨⟨hq.inOrder, hq.bulkEncodes, hq.prioEncodes⟩, sent, rest,
        part ++ remaining.take outboundWriteChunk, ⟨?_, ?_, hsock.bulk, hsock.priority⟩,
        rfl, done, hframes⟩
      · simp only [sendRaw, Write.accepted]
        rw [hsock.out, List.append_assoc]
        rfl
      · rw [List.append_assoc]
        show part ++ (remaining.take outboundWriteChunk ++ remaining.drop outboundWriteChunk) = _
        rw [List.take_append_drop, hpart]

theorem step_inv {S : Serde} {s t : Drain} {a : DrainAction} (hI : s.Inv S)
    (hg : s.Scheduled S a) (h : s.step S a = some t) : t.Inv S := by
  obtain ⟨hu, hb⟩ := hg
  unfold step at h
  cases a with
  | pushBulk f =>
    simp only at h
    split at h
    · contradiction
    · obtain rfl := Option.some.inj h
      obtain ⟨hq, sent, rest, part, hsock, hpend⟩ := hI
      obtain ⟨⟨hbulk, hprio⟩, hbe, hpe⟩ := hq
      refine ⟨⟨⟨?_, hprio⟩, ?_, hpe⟩, sent, rest, part,
        ⟨hsock.out, hsock.part, hsock.bulk, hsock.priority⟩, hpend⟩
      · simp [Lanes.pushBulk, ← hbulk]
      · intro g hg
        rcases List.mem_append.mp hg with hm | hm
        · exact hbe g hm
        · rw [List.mem_singleton.mp hm]; exact hu
  | addInflight size =>
    obtain rfl := Option.some.inj h
    exact hI.of_counters _ _ _ _
  | pushPriority f =>
    simp only at h
    split at h
    · contradiction
    · obtain rfl := Option.some.inj h
      obtain ⟨hq, sent, rest, part, hsock, hpend⟩ := hI
      obtain ⟨⟨hbulk, hprio⟩, hbe, hpe⟩ := hq
      refine ⟨⟨⟨hbulk, ?_⟩, hbe, ?_⟩, sent, rest, part,
        ⟨hsock.out, hsock.part, hsock.bulk, hsock.priority⟩, hpend⟩
      · simp [Lanes.pushPriority, ← hprio]
      · intro g hg
        rcases List.mem_append.mp hg with hm | hm
        · exact hpe g hm
        · rw [List.mem_singleton.mp hm]; exact hu
  | addBacklog =>
    obtain rfl := Option.some.inj h
    exact hI.of_counters _ _ _ _
  | close =>
    obtain rfl := Option.some.inj h
    exact hI.of_counters _ _ _ _
  | recvAny w =>
    simp only at h
    split at h
    · have hw : w = none := hu
      subst hw
      exact recvAny_inv hI ‹_› h
    · contradiction
  | coalesce =>
    simp only at h
    split at h
    · obtain rfl := Option.some.inj h
      exact coalesce_inv hI ‹_›
    · contradiction
  | commit w =>
    simp only at h
    split at h
    · obtain rfl := Option.some.inj h
      have hw : w = none := hu
      subst hw
      exact commit_inv hI ‹_› hb
    · contradiction

/-! ## Whole runs -/

theorem init_inv (S : Serde) (frameCapacity budgetBytes : Nat) :
    Inv S (init frameCapacity budgetBytes) :=
  ⟨⟨⟨rfl, rfl⟩, by simp [init], by simp [init]⟩, [], [], [], ⟨rfl, rfl, rfl, rfl⟩, rfl, rfl⟩

/-- The frames on the socket come from the two lanes. -/
theorem mem_sent {s : Drain} {sent : List (Lane × Frame)} {rest : List Frame}
    (hb : framesOf .bulk sent ++ rest = s.takenBulk) (hp : framesOf .priority sent = s.takenPriority)
    {x : Lane × Frame} (hx : x ∈ sent) : x.2 ∈ s.takenBulk ∨ x.2 ∈ s.takenPriority := by
  have hmem : x.2 ∈ framesOf x.1 sent := by
    simp only [framesOf, List.mem_map, List.mem_filter]
    exact ⟨x, ⟨hx, by simp⟩, rfl⟩
  cases hlane : x.1 with
  | bulk =>
    rw [hlane] at hmem
    exact .inl (hb ▸ List.mem_append_left _ hmem)
  | priority =>
    rw [hlane] at hmem
    exact .inr (hp ▸ hmem)

/-- **The socket carries whole frames.** In every run in which frames encode, writes succeed and a
    priority frame is found only between two frames of a batch: the socket holds whole frames (and
    during a batch the beginning of its unwritten frames), bulk frames in queue order, priority
    frames in lane order, each dequeued frame once; and between batches the other end receives
    exactly these frames, provided they are frames the decoder accepts. -/
theorem drain_writes_whole_frames (S : Serde) (hS : S.RoundTrips) (frameCapacity budgetBytes : Nat)
    (as : List DrainAction) (s : Drain)
    (hr : run (step S) (init frameCapacity budgetBytes) as = some s)
    (hm : Meets (step S) (Scheduled S) (init frameCapacity budgetBytes) as) :
    s.InOrder ∧ ∃ sent, s.WholeFrames S sent ∧
      (s.AtRest → (∀ f, f ∈ s.takenBulk ∨ f ∈ s.takenPriority → f.WellFormed) →
        s.Received S sent) := by
  have hI : s.Inv S :=
    run_inv (fun _ _ _ hI hg h => step_inv hI hg h) (init_inv S _ _) hm hr
  obtain ⟨hq, sent, rest, part, hsock, hpend⟩ := hI
  have hrest : s.AtRest → rest = [] ∧ part = [] := by
    intro hat
    unfold Pending at hpend
    rcases hat with h | h <;> (rw [h] at hpend; exact hpend)
  refine ⟨hq.inOrder, sent, ⟨rest, part, hsock, hrest⟩, ?_⟩
  intro hat hwf reads hne hreads
  obtain ⟨rfl, rfl⟩ := hrest hat
  have hframes : ∀ f ∈ sent.map Prod.snd, Encodes S f ∧ f.WellFormed := by
    intro f hf
    obtain ⟨x, hx, rfl⟩ := List.mem_map.mp hf
    have htaken := mem_sent hsock.bulk hsock.priority hx
    refine ⟨?_, hwf _ htaken⟩
    rcases htaken with h | h
    · exact hq.bulkEncodes _ (hq.inOrder.1 ▸ List.mem_append_left _ h)
    · exact hq.prioEncodes _ (hq.inOrder.2 ▸ List.mem_append_left _ h)
  have := recvFrames_wire hS (sent.map Prod.snd) [] reads hne hframes
    (by rw [List.nil_append, hreads, hsock.out, List.append_nil])
  rwa [List.length_map, List.map_map] at this

instance (S : Serde) (f : Frame) : Decidable (Encodes S f) :=
  match h : f.encode S with
  | .ok b => isTrue ⟨b, h⟩
  | .error _ => isFalse fun ⟨b, hb⟩ => by rw [h] at hb; cases hb

instance (S : Serde) (s : Drain) (a : DrainAction) : Decidable (s.Scheduled S a) := by
  unfold Scheduled Undisturbed PollsAtBoundary
  refine @instDecidableAnd _ _ ?_ ?_
  · split <;> infer_instance
  · split <;> infer_instance

/-- The pause of channel 7, and `serde_json` on it. -/
def pauseSeven : JsonMessage := .flowControl ⟨.pause, some ⟨7⟩⟩

def pauseSevenText : Bytes :=
  [123, 34, 97, 99, 116, 105, 111, 110, 34, 58, 34, 80, 97, 117, 115, 101, 34, 44, 34, 99, 111,
    110, 110, 101, 99, 116, 105, 111, 110, 95, 105, 100, 34, 58, 55, 125]

def pauseSerde : Serde where
  toVec m := if m = pauseSeven then .ok pauseSevenText else .error "other message"
  fromSlice t b :=
    if t = .flowControl ∧ b = pauseSevenText then .ok pauseSeven else .error "other text"

theorem pauseSerde_roundTrips : pauseSerde.RoundTrips := by
  intro m b h
  simp only [pauseSerde] at h
  split at h
  · rename_i hm
    cases h
    subst hm
    rfl
  · contradiction

/-- A pause that arrives while a batch of one small frame waits to be written. -/
def pauseRun : List DrainAction :=
  [.pushBulk (.binary (.streamData ⟨⟨7⟩, 1, [1, 2, 3]⟩)), .recvAny none, .coalesce,
    .pushPriority (.json pauseSeven), .addBacklog, .commit none, .commit none, .commit none]

theorem drain_writes_whole_frames_pause :
    ∃ s, run (step pauseSerde) (init 2048 65536) pauseRun = some s ∧ s.phase = .waiting ∧
      s.takenBulk.length = 1 ∧ s.takenPriority.length = 1 ∧
      s.InOrder ∧ ∃ sent, s.WholeFrames pauseSerde sent ∧
        (s.AtRest → (∀ f, f ∈ s.takenBulk ∨ f ∈ s.takenPriority → f.WellFormed) →
          s.Received pauseSerde sent) :=
  have hr := Option.eq_some_of_isSome
    (show (run (step pauseSerde) (init 2048 65536) pauseRun).isSome = true by decide +kernel)
  ⟨_, hr, by decide +kernel, by decide +kernel, by decide +kernel,
    drain_writes_whole_frames pauseSerde pauseSerde_roundTrips 2048 65536 pauseRun _ hr
      (by decide +kernel)⟩

/-! ## A frame longer than a chunk -/

/-- A priority frame that arrives after the first chunk of a batch of one frame. -/
def splitRun (f p : Frame) : List DrainAction :=
  [.pushBulk f, .recvAny none, .coalesce, .commit none, .pushPriority p, .commit none,
    .commit none, .commit none]

/-- The priority frame is written inside the bulk frame. -/
theorem splitRun_out {S : Serde} {f p : Frame} {A B : Bytes} (hf : Encodes S f) (hp : Encodes S p)
    (hw : wire S [f] = A ++ B) (hA : A.length = outboundWriteChunk) (hB : B ≠ [])
    (hB' : B.length ≤ outboundWriteChunk) :
    run (step S) (init 2048 65536) (splitRun f p) = some
      { init 2048 65536 with
        out := A ++ (wire S [p] ++ B)
        queuedBulk := [f]
        queuedPriority := [p]
        takenBulk := [f]
        takenPriority := [p] } := by
  have hAB : A ++ B ≠ [] := by simp [hB]
  have htake : (A ++ B).take outboundWriteChunk = A := List.take_left' hA
  have hdrop : (A ++ B).drop outboundWriteChunk = B := List.drop_left' hA
  have htakeB : B.take outboundWriteChunk = B := List.take_of_length_le hB'
  have hdropB : B.drop outboundWriteChunk = [] := List.drop_of_length_le hB'
  simp [splitRun, run, step, init, outboundChannel, Lanes.pushBulk, recvAny, pollBulk,
    encodeInto_of_encodes hf, encodeInto_of_encodes hp, hw, popBulk, popPriority, coalesce,
    commit, sendRaw, Write.accepted, Lanes.release, Lanes.releasePriority,
    Lanes.pushPriority, Lanes.priorityPending, hAB, hB, htake, hdrop, htakeB, hdropB]

theorem splitRun_undisturbed {S : Serde} {f p : Frame} (hf : Encodes S f) (hp : Encodes S p)
    (s : Drain) : ∀ a ∈ splitRun f p, s.Undisturbed S a := by
  intro a ha
  simp only [splitRun, List.mem_cons, List.not_mem_nil, or_false] at ha
  rcases ha with rfl | rfl | rfl | rfl | rfl | rfl | rfl | rfl
  all_goals first | exact hf | exact hp | exact rfl | trivial

/-- One frame of each lane stands in one of two orders. -/
theorem sent_of_singletons {sent : List (Lane × Frame)} {f p : Frame}
    (hb : framesOf .bulk sent = [f]) (hp : framesOf .priority sent = [p]) :
    sent.map Prod.snd = [f] ++ [p] ∨ sent.map Prod.snd = [p] ++ [f] := by
  have hlen : ∀ l : List (Lane × Frame),
      (framesOf .bulk l).length + (framesOf .priority l).length = l.length := by
    intro l
    induction l with
    | nil => rfl
    | cons x l ih =>
      obtain ⟨lane, g⟩ := x
      cases lane <;> simp [framesOf] at ih ⊢ <;> omega
  have h2 : sent.length = 2 := by rw [← hlen, hb, hp]; rfl
  match sent, h2 with
  | [(lx, x), (ly, y)], _ => cases lx <;> cases ly <;> simp_all [framesOf]

/-- The first nineteen bytes of a full 64 KiB of drawing in one frame: its header, its channel and
    its sequence number. -/
def redrawHead : Bytes :=
  magicBytes ++ ([wireVersion] ++ (beBytes 2 0x20 ++ (beBytes 4 65544 ++ (be32 1 ++ be32 0))))

theorem wire_redraw (S : Serde) (data : Bytes) (h : data.length = 65536) :
    Encodes S (.binary (.streamData ⟨⟨1⟩, 0, data⟩)) ∧
      wire S [.binary (.streamData ⟨⟨1⟩, 0, data⟩)] = redrawHead ++ data := by
  have hpay := wirePayload_streamData S ⟨⟨1⟩, 0, data⟩ (by
    show 8 + data.length ≤ maxFrameSize
    rw [h]; decide)
  have henc : Frame.encode S (.binary (.streamData ⟨⟨1⟩, 0, data⟩)) = .ok (redrawHead ++ data) := by
    have hlen : (be32 1 ++ (be32 0 ++ data)).length = 65544 := by
      simp only [List.length_append, be32_length, h]
    rw [encode_eq, hpay]
    simp only [Except.map, BinaryMessage.payload, frameBytes, hlen, redrawHead, List.append_assoc]
    rfl
  refine ⟨⟨_, henc⟩, ?_⟩
  rw [wire_cons, henc, wire_nil, List.append_nil]
  rfl

/-- **A priority frame inside a bulk frame.** Every frame encodes and every write succeeds, and the
    socket does not hold whole frames. -/
theorem priority_splits_redraw :
    ¬ ∀ (S : Serde) (frameCapacity budgetBytes : Nat) (as : List DrainAction) (s : Drain),
      run (step S) (init frameCapacity budgetBytes) as = some s →
      Meets (step S) (Undisturbed S) (init frameCapacity budgetBytes) as →
        ∃ sent, s.WholeFrames S sent := by
  intro h
  obtain ⟨hf, hwire⟩ := wire_redraw pauseSerde (List.replicate 65517 0 ++ List.replicate 19 0)
    (by rw [List.length_append, List.length_replicate, List.length_replicate])
  have hp : Encodes pauseSerde (.json pauseSeven) := by decide +kernel
  generalize Frame.binary
    (.streamData ⟨⟨1⟩, 0, List.replicate 65517 0 ++ List.replicate 19 0⟩) = f at hf hwire
  rw [← List.append_assoc] at hwire
  have hrun := splitRun_out hf hp hwire
    (by rw [List.length_append, List.length_replicate]; rfl) (by decide)
    (by rw [List.length_replicate]; decide)
  obtain ⟨sent, rest, part, hsock, hrest⟩ := h pauseSerde 2048 65536 _ _ hrun
    (meets_of_forall (splitRun_undisturbed hf hp) _)
  obtain ⟨rfl, rfl⟩ := hrest (.inl rfl)
  have hout : (redrawHead ++ List.replicate 65517 0) ++ (wire pauseSerde [.json pauseSeven] ++
      List.replicate 19 0) = wire pauseSerde (sent.map Prod.snd) ++ [] := hsock.out
  have hb := hsock.bulk
  rw [List.append_nil] at hout hb
  rcases sent_of_singletons hb hsock.priority with hs | hs
  · -- the drawing first: its tail would have to start with the magic of the pause
    rw [hs, wire_append, hwire, List.append_assoc (redrawHead ++ List.replicate 65517 0)] at hout
    have := List.append_cancel_left hout
    exact absurd (congrArg List.head? this) (by decide +kernel)
  · -- the pause first: the two headers differ in their type
    rw [hs, wire_append, hwire] at hout
    have := congrArg (fun l => l.take 11) hout
    exact absurd this (by decide +kernel)

end Drain

end RemoteX11.Transport
