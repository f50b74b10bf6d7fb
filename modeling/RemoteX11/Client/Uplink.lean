/-
  The client's uplink: local X11 pumps that share one stream encoder and one outbound queue
  (`proxy.rs`, `pump_local_x11_connection`; `dataplane.rs`; `queue.rs`).

  A pump reads, builds a frame under the encoder's lock and awaits `outbound.send`. The lock is not
  held over the await, so another pump may compress a payload and push its frame while the first one
  waits, and a pump that is dropped at the await takes its frame with it. Each accessor of the queue is
  a step of its own here, and the pumps, the other tasks of the client and the writer interleave
  freely.

  `fragments_in_order`: while a payload is compressed only when no compressed frame is in a pump's
  hands, and no pump is dropped with one in its hands, the writer takes the encoder's fragments in the
  encoder's order and none is missing.
-/
import RemoteX11.Data.Fragments
import RemoteX11.Queue.Order

namespace RemoteX11.Client

open RemoteX11.Lib RemoteX11.Protocol RemoteX11.Data

/-! ## One turn of a pump -/

/-- What the pumps of a client share. -/
structure Shared (K : Codecs) where
  encoder : K.Encoder
  seq : UInt32
  stats : ConnectionStats

/-- The uplink arm after a read, up to `build_frame`. `reset` is the value of the `uplink_reset` flag;
    without a base the session-wide counter numbers the frame. -/
def buildNext {K : Codecs} (dp : DataPlane) (shared : Shared K) (base : Option ConnectionDataCache)
    (c : ConnectionId) (reset : Bool) (data : Bytes) :
    Frame × Shared K × Option ConnectionDataCache :=
  let base := if reset then base.map fun cache => cache.clearConnection c else base
  let (seqId, seq) :=
    match base with
    | some cache => (cache.nextSequenceFor c, shared.seq)
    | none => (shared.seq, shared.seq + 1)
  let (frame, sender) := dp.buildFrame K ⟨shared.encoder, base, some shared.stats⟩ c seqId data
  (frame, ⟨sender.encoder, seq, sender.stats.getD shared.stats⟩, sender.cache)

theorem buildNext_history {K : Codecs} {dp : DataPlane} (hz : dp.compression = some .zstdStream)
    {shared : Shared K} {l : List (Nat × Bytes)} (h : K.History shared.encoder l)
    (base : Option ConnectionDataCache) (c : ConnectionId) (reset : Bool) {data : Bytes}
    (hdata : data ≠ []) :
    K.History (buildNext dp shared base c reset data).2.1.encoder
      (l ++ (fragmentOf (buildNext dp shared base c reset data).1).toList) :=
  buildFrame_history hz h c _ hdata

theorem buildNext_diff {K : Codecs} {dp : DataPlane} {shared : Shared K}
    {base : Option ConnectionDataCache} {c : ConnectionId} {reset : Bool} {data : Bytes}
    (h : isCompressedDiff (buildNext dp shared base c reset data).1 = true) :
    dp.mayDiffSend = true :=
  buildFrame_diff h

/-! ## The system -/

inductive PumpPhase where
  /-- at the gate or the read -/
  | reading
  /-- `build_frame` has returned -/
  | built (frame : Frame)
  /-- in `outbound.send`, the queue's call `i` -/
  | sending (i : Nat)
  | ended
  deriving DecidableEq, Repr

structure Pump where
  connectionId : ConnectionId
  base : Option ConnectionDataCache
  phase : PumpPhase

/-- The frame of a pump that has not called `send` yet. -/
def Pump.built (p : Pump) : Option Frame :=
  match p.phase with
  | .built frame => some frame
  | _ => none

/-- `fragments`, `enqueued` and `drained` are what the encoder returned, what entered the bulk lane
    and what the writer took from it, each in order. -/
structure Uplink (K : Codecs) where
  shared : Shared K
  pumps : List Pump
  queue : Queue.State
  fragments : List (Nat × Bytes)
  enqueued : List Frame
  drained : List Frame

inductive Action where
  /-- a `ChannelOpen` starts a pump -/
  | spawn (c : ConnectionId)
  /-- pump `p` reads and builds a frame -/
  | read (p : Nat) (data : Bytes) (reset : Bool)
  /-- pump `p` calls `send` -/
  | start (p : Nat)
  /-- the `send` of pump `p` has returned -/
  | finish (p : Nat)
  /-- pump `p` is dropped at an await: end of stream, `select!` or `abort` -/
  | abort (p : Nat)
  /-- an access to the queue: of a `send` in progress, of another task, or of the writer -/
  | queue (a : Queue.Action)

namespace Uplink

variable {K : Codecs}

/-- Only the pumps send compressed frames, and only `abort` drops a pump's call. -/
def Foreign (s : Uplink K) : Queue.Action → Prop
  | .start frame => fragmentOf frame = none
  | .pushPriority frame => fragmentOf frame = none
  | .cancel i => (∀ p ∈ s.pumps, p.phase ≠ .sending i) ∧
      ∀ c ∈ s.queue.sends[i]?, fragmentOf c.frame = none
  | _ => True

instance (s : Uplink K) (a : Queue.Action) : Decidable (s.Foreign a) :=
  match a with
  | .start frame => inferInstanceAs (Decidable (fragmentOf frame = none))
  | .pushPriority frame => inferInstanceAs (Decidable (fragmentOf frame = none))
  | .cancel i => inferInstanceAs (Decidable ((∀ p ∈ s.pumps, p.phase ≠ .sending i) ∧
      ∀ c ∈ s.queue.sends[i]?, fragmentOf c.frame = none))
  | .send _ | .addBacklog | .popBulk | .release | .notify | .popPriority | .releasePriority
  | .dropReceiver | .closeBulk | .closePriority => isTrue trivial

/-- The queue after an access, with what entered and what left the bulk lane. -/
def onQueue (s : Uplink K) (a : Queue.Action) (q : Queue.State) : Uplink K :=
  { s with
    queue := q
    enqueued := s.enqueued ++ Queue.State.pushedBy s.queue q
    drained := s.drained ++ s.queue.poppedBy a }

def setPump (s : Uplink K) (p : Nat) (pump : Pump) : Uplink K :=
  { s with pumps := s.pumps.set p pump }

def step (dp : DataPlane) (params : DiffParams) (s : Uplink K) : Action → Option (Uplink K)
  | .spawn c =>
    let base := if dp.mayDiffSend then some (ConnectionDataCache.withParams params) else none
    some { s with pumps := s.pumps ++ [⟨c, base, .reading⟩] }
  | .read p data reset =>
    match s.pumps[p]? with
    | some ⟨c, base, .reading⟩ =>
      if data = [] then none
      else
        let (frame, shared, base) := buildNext dp s.shared base c reset data
        some { s.setPump p ⟨c, base, .built frame⟩ with
          shared := shared
          fragments := s.fragments ++ (fragmentOf frame).toList }
    | _ => none
  | .start p =>
    match s.pumps[p]? with
    | some ⟨c, base, .built frame⟩ =>
      (s.queue.step (.start frame)).map fun q =>
        (s.onQueue (.start frame) q).setPump p ⟨c, base, .sending s.queue.sends.length⟩
    | _ => none
  | .finish p =>
    match s.pumps[p]? with
    | some ⟨c, base, .sending i⟩ =>
      match s.queue.sends[i]? with
      | some ⟨_, .returnedOk⟩ => some (s.setPump p ⟨c, base, .reading⟩)
      | some ⟨_, .returnedErr _⟩ => some (s.setPump p ⟨c, base, .ended⟩)
      | _ => none
    | _ => none
  | .abort p =>
    match s.pumps[p]? with
    | some ⟨c, base, .reading⟩ => some (s.setPump p ⟨c, base, .ended⟩)
    | some ⟨c, base, .sending i⟩ =>
      (s.queue.step (.cancel i)).map fun q =>
        (s.onQueue (.cancel i) q).setPump p ⟨c, base, .ended⟩
    | _ => none
  | .queue a => if s.Foreign a then (s.queue.step a).map (s.onQueue a) else none

def init (K : Codecs) (frameCapacity budgetBytes : Nat) : Uplink K where
  shared := ⟨K.newEncoder, 0, .new⟩
  pumps := []
  queue := .init frameCapacity budgetBytes
  fragments := []
  enqueued := []
  drained := []

/-- The frames that were built and have not entered the queue. -/
def inHand (s : Uplink K) : List Frame := s.pumps.filterMap Pump.built ++ s.queue.waiting

/-- The fragments among them. -/
def held (s : Uplink K) : List (Nat × Bytes) := fragmentsOf s.inHand

/-- The bulk channel still has its receiver. -/
def Open (s : Uplink K) : Prop := s.queue.rx.closedBulk = false

instance (s : Uplink K) : Decidable s.Open := inferInstanceAs (Decidable (_ = _))

/-- **The property.** `fragments` is the encoder's history; what entered the queue is a prefix of it,
    lacks only what is still in a pump's hands, and so is what the writer took. -/
structure InOrder (s : Uplink K) : Prop where
  history : K.History s.shared.encoder s.fragments
  enqueued : fragmentsOf s.enqueued <+: s.fragments
  complete : s.Open → s.fragments = fragmentsOf s.enqueued ++ s.held
  drained : fragmentsOf s.drained <+: s.fragments

/-- The frame pump `p` would build next. -/
def nextFrame (dp : DataPlane) (s : Uplink K) (p : Nat) (data : Bytes) (reset : Bool) :
    Option Frame :=
  s.pumps[p]?.map fun pump => (buildNext dp s.shared pump.base pump.connectionId reset data).1

/-- The frame in the hands of pump `p` at its await. -/
def awaiting (s : Uplink K) (p : Nat) : Option Frame :=
  match s.pumps[p]? with
  | some ⟨_, _, .sending i⟩ => s.queue.sends[i]?.bind Queue.SendCall.waiting
  | _ => none

/-- A payload is compressed only while no compressed frame is in a pump's hands, and no pump is dropped
    with one in its hands. Once the queue is closed nothing enters it any more. -/
def Exclusive (dp : DataPlane) (s : Uplink K) : Action → Prop
  | .read p data reset =>
    s.Open → s.held ≠ [] → (s.nextFrame dp p data reset).bind fragmentOf = none
  | .abort p => s.Open → (s.awaiting p).bind fragmentOf = none
  | _ => True

instance (dp : DataPlane) (s : Uplink K) (a : Action) : Decidable (s.Exclusive dp a) :=
  match a with
  | .read p data reset => inferInstanceAs (Decidable (s.Open → s.held ≠ [] →
      (s.nextFrame dp p data reset).bind fragmentOf = none))
  | .abort p => inferInstanceAs (Decidable (s.Open → (s.awaiting p).bind fragmentOf = none))
  | .spawn _ | .start _ | .finish _ | .queue _ => isTrue trivial

/-! ## Every run: the encoder's history and the lane -/

/-- What holds in every run: `fragments` is the encoder's history, and the writer takes what entered
    the lane in order. -/
structure Recorded (s : Uplink K) : Prop where
  history : K.History s.shared.encoder s.fragments
  drained : s.drained <+: s.enqueued
  queued : s.Open → s.enqueued = s.drained ++ s.queue.queued

/-- An access keeps the record. -/
theorem Recorded.onQueue {s : Uplink K} (h : s.Recorded) {a : Queue.Action} {q : Queue.State}
    (hq : s.queue.step a = some q) : (s.onQueue a q).Recorded := by
  obtain ⟨hist, hdrained, hqueued⟩ := h
  have hopen : q.rx.closedBulk = false →
      s.enqueued ++ Queue.State.pushedBy s.queue q =
        s.drained ++ s.queue.poppedBy a ++ q.queued := by
    intro hclosed
    obtain ⟨hs, hfifo⟩ := Queue.State.step_fifo hq hclosed
    rw [hqueued hs, List.append_assoc, hfifo, List.append_assoc]
  refine ⟨hist, ?_, hopen⟩
  show s.drained ++ s.queue.poppedBy a <+: s.enqueued ++ Queue.State.pushedBy s.queue q
  rcases hclosed : q.rx.closedBulk with _ | _
  · rw [hopen hclosed]
    exact List.prefix_append _ _
  · rw [Queue.State.step_popped hq hclosed, List.append_nil]
    exact hdrained.trans (List.prefix_append _ _)

theorem step_recorded {dp : DataPlane} (hz : dp.compression = some .zstdStream)
    {params : DiffParams} {s t : Uplink K} {a : Action} (hI : s.Recorded)
    (h : s.step dp params a = some t) : t.Recorded := by
  unfold step at h
  split at h
  · obtain rfl := Option.some.inj h
    exact ⟨hI.history, hI.drained, hI.queued⟩
  · split at h
    · split at h
      · contradiction
      · rename_i hdata
        obtain rfl := Option.some.inj h
        exact ⟨buildNext_history hz hI.history _ _ _ hdata, hI.drained, hI.queued⟩
    · contradiction
  · split at h
    · obtain ⟨q, hq, rfl⟩ := Option.map_eq_some_iff.mp h
      have hrec := hI.onQueue hq
      exact ⟨hrec.history, hrec.drained, hrec.queued⟩
    · contradiction
  · split at h
    · split at h
      · obtain rfl := Option.some.inj h
        exact ⟨hI.history, hI.drained, hI.queued⟩
      · obtain rfl := Option.some.inj h
        exact ⟨hI.history, hI.drained, hI.queued⟩
      · contradiction
    · contradiction
  · split at h
    · obtain rfl := Option.some.inj h
      exact ⟨hI.history, hI.drained, hI.queued⟩
    · obtain ⟨q, hq, rfl⟩ := Option.map_eq_some_iff.mp h
      have hrec := hI.onQueue hq
      exact ⟨hrec.history, hrec.drained, hrec.queued⟩
    · contradiction
  · split at h
    · obtain ⟨q, hq, rfl⟩ := Option.map_eq_some_iff.mp h
      exact hI.onQueue hq
    · contradiction

/-! ## Exclusive runs: the order -/

/-- While the queue is open at most one fragment is in hand, and it is the only one that has not
    entered the queue. -/
structure Ordered (s : Uplink K) : Prop where
  enqueued : fragmentsOf s.enqueued <+: s.fragments
  complete : s.Open → s.fragments = fragmentsOf s.enqueued ++ s.held
  one : s.Open → s.held.length ≤ 1

/-- Lists of at most one element have one order. -/
theorem eq_of_perm_of_length_le_one {α : Type*} {l m : List α} (h : l.Perm m) (hl : l.length ≤ 1) :
    l = m := by
  rcases l with _ | ⟨a, _ | ⟨b, l⟩⟩
  · exact h.nil_eq
  · exact List.singleton_perm.mp h
  · simp at hl

/-- A step that moves the fragments `l` from the hands of the pumps into the queue, or none. -/
theorem Ordered.move {s t : Uplink K} (h : s.Ordered) (l : List (Nat × Bytes))
    (hl : l = [] ∨ s.Open) (hopen : t.Open → s.Open) (hfragments : t.fragments = s.fragments)
    (henqueued : fragmentsOf t.enqueued = fragmentsOf s.enqueued ++ l)
    (hheld : s.held.Perm (l ++ t.held)) : t.Ordered := by
  obtain ⟨hpre, hcomplete, hone⟩ := h
  have heq : s.Open → s.held = l ++ t.held := fun ho => eq_of_perm_of_length_le_one hheld (hone ho)
  refine ⟨?_, ?_, ?_⟩
  · rw [hfragments, henqueued]
    rcases hl with rfl | ho
    · simpa using hpre
    · rw [hcomplete ho, heq ho, ← List.append_assoc]
      exact List.prefix_append _ _
  · intro ho
    rw [hfragments, henqueued, hcomplete (hopen ho), heq (hopen ho), List.append_assoc]
  · intro ho
    have hle := hone (hopen ho)
    rw [heq (hopen ho), List.length_append] at hle
    omega

/-- A step of a closed queue. -/
theorem Ordered.closed {s t : Uplink K} (h : s.Ordered) (hclosed : ¬t.Open)
    (hfragments : s.fragments <+: t.fragments)
    (henqueued : fragmentsOf t.enqueued = fragmentsOf s.enqueued) : t.Ordered := by
  refine ⟨?_, fun ho => absurd ho hclosed, fun ho => absurd ho hclosed⟩
  rw [henqueued]
  exact h.enqueued.trans hfragments

/-- The fragments around one of the frames in hand. -/
theorem fragmentsOf_around (l m : List Frame) (f : Frame) :
    (fragmentsOf (l ++ [f] ++ m)).Perm ((fragmentOf f).toList ++ fragmentsOf (l ++ m)) := by
  simp only [fragmentsOf_append, fragmentsOf_singleton]
  rw [List.append_assoc]
  refine (List.perm_append_comm_assoc _ _ _).trans ?_
  exact List.Perm.refl _

/-- An access that brings no fragment and takes none away. -/
def Harmless (s : Uplink K) : Queue.Action → Prop
  | .start frame => fragmentOf frame = none
  | .cancel i => (s.queue.sends[i]?.bind Queue.SendCall.waiting).bind fragmentOf = none
  | _ => True

theorem Foreign.harmless {s : Uplink K} {a : Queue.Action} (h : s.Foreign a) : s.Harmless a := by
  unfold Harmless
  split
  · exact h
  · rename_i i
    rcases hc : s.queue.sends[i]? with _ | ⟨frame, phase⟩
    · rfl
    · have hframe : fragmentOf frame = none := h.2 _ hc
      rcases phase with w | w | - | w | - | - | - <;> first | exact hframe | rfl
  · trivial

/-- What an access of the queue does to the fragments in hand. -/
theorem Ordered.onQueue {s : Uplink K} (h : s.Ordered) {a : Queue.Action} {q : Queue.State}
    (hq : s.queue.step a = some q) (ha : s.Open → s.Harmless a) : (s.onQueue a q).Ordered := by
  have hopen : (s.onQueue a q).Open → s.Open := fun ho => (Queue.State.step_fifo hq ho).1
  have hheld : ∀ pre post : List Frame, ∀ f, s.queue.waiting = pre ++ [f] ++ post →
      q.waiting = pre ++ post → s.held.Perm ((fragmentOf f).toList ++ (s.onQueue a q).held) := by
    intro pre post f hbefore hafter
    have haround := fragmentsOf_around (s.pumps.filterMap Pump.built ++ pre) post f
    simp only [held, inHand, Uplink.onQueue, hbefore, hafter]
    simpa using haround
  -- nothing enters the queue, and the fragments in hand stay as long as that matters
  have hkeep : Queue.State.pushedBy s.queue q = [] →
      (s.Open → s.held.Perm (s.onQueue a q).held) → (s.onQueue a q).Ordered := by
    intro hpushed hperm
    by_cases ho : s.Open
    · exact h.move [] (.inl rfl) hopen rfl (by simp [Uplink.onQueue, hpushed]) (hperm ho)
    · exact h.closed (fun ht => ho (hopen ht)) List.prefix_rfl (by simp [Uplink.onQueue, hpushed])
  rcases Queue.State.step_effect hq with ⟨hpushed, hwaiting⟩ | ⟨frame, rfl, hpushed, hwaiting⟩ |
    ⟨frame, pre, post, ho, hpushed, hbefore, hafter⟩ |
    ⟨i, c, pre, post, rfl, hc, hcw, hpushed, hbefore, hafter⟩ |
    ⟨frame, pre, post, hclosed, hpushed, hbefore, hafter⟩
  · refine hkeep hpushed fun _ => ?_
    simp only [held, inHand, Uplink.onQueue, hwaiting]
    exact List.Perm.refl _
  · refine hkeep hpushed fun ho => ?_
    have hframe : fragmentOf frame = none := ha ho
    simp [held, inHand, Uplink.onQueue, hwaiting, hframe]
  · exact h.move _ (.inr ho) hopen rfl (by simp [Uplink.onQueue, hpushed])
      (hheld pre post frame hbefore hafter)
  · refine hkeep hpushed fun ho => ?_
    have hframe : fragmentOf c.frame = none := by
      simpa [Harmless, hc, hcw] using ha ho
    simpa [hframe] using hheld pre post c.frame hbefore hafter
  · refine hkeep hpushed fun ho => ?_
    have hs : s.queue.rx.closedBulk = false := ho
    rw [hclosed] at hs
    contradiction

/-- A pump that has no built frame before and after. -/
theorem Ordered.setPump {s : Uplink K} (h : s.Ordered) {p : Nat} {old new : Pump}
    (hp : s.pumps[p]? = some old) (hold : old.built = none) (hnew : new.built = none) :
    (s.setPump p new).Ordered := by
  obtain ⟨pre, post, hbefore, hafter⟩ := filterMap_set Pump.built new hp
  refine h.move [] (.inl rfl) id rfl (by simp [Uplink.setPump]) ?_
  simp only [held, inHand, Uplink.setPump, hbefore, hafter, hold, hnew]
  exact List.Perm.refl _

/-- A pump that has built a frame. -/
theorem Ordered.read {s t : Uplink K} (h : s.Ordered) {p : Nat} {old new : Pump} {frame : Frame}
    (hp : s.pumps[p]? = some old) (hold : old.built = none) (hnew : new.built = some frame)
    (hpumps : t.pumps = s.pumps.set p new) (hqueue : t.queue = s.queue)
    (henqueued : t.enqueued = s.enqueued)
    (hfragments : t.fragments = s.fragments ++ (fragmentOf frame).toList)
    (hexcl : s.Open → s.held ≠ [] → fragmentOf frame = none) : t.Ordered := by
  obtain ⟨pre, post, hbefore, hafter⟩ := filterMap_set Pump.built new hp
  have hopen : t.Open ↔ s.Open := by rw [Open, Open, hqueue]
  have hheld : t.held.Perm ((fragmentOf frame).toList ++ s.held) := by
    have haround := fragmentsOf_around pre (post ++ s.queue.waiting) frame
    simp only [held, inHand, hpumps, hqueue, hbefore, hafter, hold, hnew]
    simpa using haround
  by_cases ho : s.Open
  · by_cases hnone : s.held = []
    · rw [hnone, List.append_nil] at hheld
      have hle : t.held.length ≤ 1 := by
        rw [hheld.length_eq]
        rcases fragmentOf frame with _ | x <;> simp
      refine ⟨?_, ?_, fun _ => hle⟩
      · rw [henqueued, hfragments]
        exact h.enqueued.trans (List.prefix_append _ _)
      · intro _
        rw [henqueued, hfragments, h.complete ho, hnone, List.append_nil,
          eq_of_perm_of_length_le_one hheld hle]
    · have hframe := hexcl ho hnone
      refine h.move [] (.inl rfl) hopen.mp (by simp [hfragments, hframe]) (by simp [henqueued]) ?_
      simpa [hframe] using hheld.symm
  · refine h.closed (mt hopen.mp ho) ?_ (by rw [henqueued])
    rw [hfragments]
    exact List.prefix_append _ _

/-- A pump that hands its frame to `send`. -/
theorem Ordered.start {s : Uplink K} (h : s.Ordered) {p : Nat} {old new : Pump} {frame : Frame}
    {q : Queue.State} (hp : s.pumps[p]? = some old) (hold : old.built = some frame)
    (hnew : new.built = none) (hq : s.queue.step (.start frame) = some q) :
    ((s.onQueue (.start frame) q).setPump p new).Ordered := by
  obtain ⟨pre, post, hbefore, hafter⟩ := filterMap_set Pump.built new hp
  obtain ⟨hrx, hpushed, hwaiting⟩ := Queue.State.start_effect hq
  have hopen : ((s.onQueue (.start frame) q).setPump p new).Open → s.Open := by
    intro ho
    rw [Open, ← hrx]
    exact ho
  refine h.move [] (.inl rfl) hopen rfl (by simp [Uplink.setPump, Uplink.onQueue, hpushed]) ?_
  have haround := fragmentsOf_around pre (post ++ s.queue.waiting) frame
  have hbefore' : s.held = fragmentsOf (pre ++ [frame] ++ (post ++ s.queue.waiting)) := by
    simp [held, inHand, hbefore, hold]
  have hafter' : ((s.onQueue (.start frame) q).setPump p new).held =
      fragmentsOf (pre ++ (post ++ s.queue.waiting)) ++ (fragmentOf frame).toList := by
    simp [held, inHand, Uplink.setPump, Uplink.onQueue, hafter, hnew, hwaiting]
  rw [List.nil_append, hbefore', hafter']
  exact haround.trans List.perm_append_comm

theorem step_ordered {dp : DataPlane} {params : DiffParams} {s t : Uplink K} {a : Action}
    (hI : s.Ordered) (hex : s.Exclusive dp a) (h : s.step dp params a = some t) : t.Ordered := by
  cases a with
  | spawn c =>
    obtain rfl := Option.some.inj h
    have hreading : ∀ base, [Pump.mk c base .reading].filterMap Pump.built = [] := fun _ => rfl
    refine hI.move [] (.inl rfl) id rfl (by simp) ?_
    simp [held, inHand, hreading]
  | read p data reset =>
    simp only [step] at h
    split at h
    · rename_i c base hp
      split at h
      · contradiction
      · obtain rfl := Option.some.inj h
        refine hI.read hp rfl rfl rfl rfl rfl rfl ?_
        intro ho hne
        simpa [nextFrame, hp] using hex ho hne
    · contradiction
  | start p =>
    simp only [step] at h
    split at h
    · rename_i c base frame hp
      obtain ⟨q, hq, rfl⟩ := Option.map_eq_some_iff.mp h
      exact hI.start hp rfl rfl hq
    · contradiction
  | finish p =>
    simp only [step] at h
    split at h
    · rename_i c base i hp
      split at h
      · obtain rfl := Option.some.inj h
        exact hI.setPump hp rfl rfl
      · obtain rfl := Option.some.inj h
        exact hI.setPump hp rfl rfl
      · contradiction
    · contradiction
  | abort p =>
    simp only [step] at h
    split at h
    · rename_i c base hp
      obtain rfl := Option.some.inj h
      exact hI.setPump hp rfl rfl
    · rename_i c base i hp
      obtain ⟨q, hq, rfl⟩ := Option.map_eq_some_iff.mp h
      have hharmless : s.Open → s.Harmless (.cancel i) := by
        intro ho
        have hawait := hex ho
        rw [awaiting, hp] at hawait
        exact hawait
      have hord := hI.onQueue hq hharmless
      exact hord.setPump hp rfl rfl
    · contradiction
  | queue a =>
    simp only [step] at h
    split at h
    · rename_i hforeign
      obtain ⟨q, hq, rfl⟩ := Option.map_eq_some_iff.mp h
      exact hI.onQueue hq fun _ => hforeign.harmless
    · contradiction

/-- **The writer takes the encoder's fragments in order.** For any pumps, any interleaving of their
    steps with the other tasks and the writer, and any pressure on the queue: in a run that compresses
    a payload only while no compressed frame is in a pump's hands, and drops no pump with one in its
    hands, what entered the queue and what left it are prefixes of the encoder's fragments, and nothing
    but what a pump still holds is missing. -/
theorem fragments_in_order (K : Codecs) (dp : DataPlane) (hz : dp.compression = some .zstdStream)
    (params : DiffParams) (frameCapacity budgetBytes : Nat) (as : List Action) (t : Uplink K)
    (hr : run (step dp params) (init K frameCapacity budgetBytes) as = some t)
    (hex : Meets (step dp params) (Exclusive dp) (init K frameCapacity budgetBytes) as) :
    t.InOrder := by
  have hrecorded : t.Recorded :=
    run_inv_all (fun _ _ _ hI h => step_recorded hz hI h)
      ⟨Codecs.history_new, List.prefix_rfl, fun _ => rfl⟩ hr
  have hordered : t.Ordered :=
    run_inv (fun _ _ _ hI hg h => step_ordered hI hg h)
      ⟨List.prefix_rfl, fun _ => rfl, fun _ => by simp [held, inHand, init, Queue.State.init,
        Queue.State.waiting]⟩ hex hr
  exact ⟨hrecorded.history, hordered.enqueued, hordered.complete,
    (hrecorded.drained.filterMap fragmentOf).trans hordered.enqueued⟩

/-- A client plane with the stream negotiated and no diffs; payloads of four bytes are compressed. -/
def streamClient : DataPlane := ⟨.client, ⟨[]⟩, some .zstdStream, 4⟩

def blockParams : DiffParams := ⟨4, 4, fun _ => 0⟩

/-- A heartbeat answer goes through the queue, and two pumps are running. -/
def busyStart : List Action :=
  [.queue (.start .heartbeatAck), .queue (.send 0), .queue (.send 0), .queue (.send 0),
    .spawn ⟨1⟩, .spawn ⟨2⟩]

/-- The first pump's compressed frame waits for the budget; meanwhile the second pump sends a payload
    that is too short to be compressed, and it compresses one when the first frame has entered. -/
def exclusiveRun : List Action :=
  busyStart ++
  [.read 0 [1, 1, 1, 1, 1, 1, 1, 1] false, .start 0, .queue (.send 1),
    .read 1 [9] false, .start 1, .queue (.send 2), .queue (.send 2), .queue (.send 2), .finish 1,
    .queue .popBulk, .queue .release, .queue .notify, .queue (.send 1), .queue (.send 1),
    .queue .popBulk, .queue .release, .queue .notify, .queue (.send 1), .queue (.send 1),
    .queue (.send 1), .queue (.send 1), .finish 0,
    .read 1 [2, 2, 2, 2] false, .start 1, .queue (.send 3), .queue .popBulk]

theorem fragments_in_order_exclusive :
    ∃ t, run (step streamClient blockParams) (init .counting 64 40) exclusiveRun = some t ∧
      t.fragments = [(8, [0, 1, 1, 1, 1, 1, 1, 1, 1]), (4, [1, 2, 2, 2, 2])] ∧
      t.drained.length = 3 ∧ t.InOrder :=
  have hr := Option.eq_some_of_isSome
    (show (run (step streamClient blockParams) (init .counting 64 40) exclusiveRun).isSome = true by
      decide +kernel)
  ⟨_, hr, by decide +kernel, by decide +kernel,
    fragments_in_order .counting streamClient rfl blockParams 64 40 exclusiveRun _ hr
      (by decide +kernel)⟩

/-- The second pump compresses a smaller payload while the frame of the first waits for the budget:
    its frame fits and enters the queue first. -/
def overtakingRun : List Action :=
  busyStart ++
  [.read 0 [1, 1, 1, 1, 1, 1, 1, 1] false, .start 0, .queue (.send 1),
    .read 1 [2, 2, 2, 2] false, .start 1, .queue (.send 2), .queue (.send 2)]

/-- Fragments enter the queue out of order. -/
theorem smaller_fragment_overtakes :
    ¬∀ (as : List Action) (t : Uplink .counting),
      run (step streamClient blockParams) (init .counting 64 40) as = some t → t.InOrder := by
  intro h
  have hr := Option.eq_some_of_isSome
    (show (run (step streamClient blockParams) (init .counting 64 40) overtakingRun).isSome = true by
      decide +kernel)
  have hpre := (h overtakingRun _ hr).enqueued
  revert hpre
  decide +kernel

end Uplink

end RemoteX11.Client
