/-
  Two data planes and the wire between them (`dataplane.rs`, `incremental.rs`).

  A sender builds frames against its cache and its stream encoder; each frame is encoded, travels in
  order, is decoded and applied to the receiver's cache and stream decoder. Between two deliveries the
  sender may send on other connections, send again on the same one, or forget a base.

  The two sides are in step (`Synced`) once everything in flight is delivered. `Deliverable` says this
  of the frames in flight one by one, so that each of them is known to be received before it is, and
  `link_delivers` follows: every payload arrives as it was sent.
-/
import RemoteX11.Data.Chain
import RemoteX11.Lib.Run

namespace RemoteX11.Data

open RemoteX11.Lib RemoteX11.Protocol DataPlane

variable {K : Codecs}

/-- The receiver holds every base the sender would diff against, and the stream contexts are in
    lockstep. -/
structure Synced (rdp : DataPlane) (s : Sender K) (r : Receiver K) : Prop where
  lockstep : K.Lockstep s.encoder r.decoder
  base : rdp.mayDiffReceive = true → ∀ cache, s.cache = some cache →
    ∀ c v, cache.lastData c = some v → r.cache.lastData c = some v

/-- The plane of the other side, with the same negotiated features and compression. -/
structure Mirrors (dp rdp : DataPlane) : Prop where
  side : rdp.side = dp.side.opposite
  features : rdp.features = dp.features
  compression : rdp.compression = dp.compression

/-- **One frame.** What `build_frame` makes of a payload, `apply_inbound` on a receiver in step turns
    back into the payload; the two stay in step and no other connection is touched. -/
theorem buildFrame_delivers {dp rdp : DataPlane} (hK : K.RoundTrips) (hm : Mirrors dp rdp)
    {s : Sender K} {r : Receiver K} (hs : Synced rdp s r) (c : ConnectionId) (seq : UInt32)
    {data : Bytes} (hdata : data ≠ [])
    (hpos : ∀ cache, s.cache = some cache → 0 < cache.params.chunkSize) :
    ∃ m r', (dp.buildFrame K s c seq data).1 = .binary m ∧ m.ChunksSized ∧
      rdp.applyInbound K r (.binary m) = (.payload c data, r') ∧
      Synced rdp (dp.buildFrame K s c seq data).2 r' ∧
      ∀ d, d ≠ c → r'.cache.lastData d = r.cache.lastData d := by
  have hmay := mayDiffReceive_opposite hm.side hm.features
  -- whichever frame is built, it delivers; what is left is the bookkeeping of the bases
  have hother : ∀ {frame : Frame} {enc : K.Encoder} {r' : Receiver K},
      Delivers rdp r frame enc c seq data r' →
        ∀ d, d ≠ c → r'.cache.lastData d = r.cache.lastData d := by
    intro frame enc r' h d hd
    rw [h.base]
    split
    · exact ConnectionDataCache.updateCacheOwned_of_ne _ _ _ hd
    · rfl
  by_cases hdiff : dp.mayDiffSend = true
  · cases hcache : s.cache with
    | none =>
      obtain ⟨r', h⟩ := plainOrCompressed_delivers hK hm.compression hs.lockstep c seq hdata
      obtain ⟨m, hframe, hsized⟩ := h.sized
      simp only [buildFrame, hdiff, hcache]
      refine ⟨m, r', hframe, hsized, hframe ▸ h.outcome, ⟨h.lockstep, ?_⟩, hother h⟩
      intro _ cache hc
      cases hc
    | some cache =>
      have hrmay : rdp.mayDiffReceive = true := hmay.trans hdiff
      have hbase : ∀ v, cache.lastData c = some v → r.cache.lastData c = some v :=
        hs.base hrmay cache hcache c
      -- the payload is the base of its connection on both sides now
      have hsynced : ∀ {frame : Frame} {enc : K.Encoder} {r' : Receiver K} {st},
          Delivers rdp r frame enc c seq data r' →
            Synced rdp ⟨enc, some (cache.updateCacheOwned c seq data), st⟩ r' := by
        intro frame enc r' st h
        refine ⟨h.lockstep, ?_⟩
        intro _ cache' hc d v hv
        cases hc
        rw [h.base, if_pos hrmay]
        by_cases hd : d = c
        · subst hd
          rw [ConnectionDataCache.updateCacheOwned_self] at hv ⊢
          exact hv
        · rw [ConnectionDataCache.updateCacheOwned_of_ne _ _ _ hd] at hv ⊢
          exact hs.base hrmay cache hcache d v hv
      simp only [buildFrame, hdiff, hcache]
      cases hcomp : cache.computeIncremental c seq data with
      | none =>
        obtain ⟨r', h⟩ := plainOrCompressed_delivers hK hm.compression hs.lockstep c seq hdata
        obtain ⟨m, hframe, hsized⟩ := h.sized
        exact ⟨m, r', hframe, hsized, hframe ▸ h.outcome, hsynced h, hother h⟩
      | some diff =>
        obtain ⟨r', h⟩ := wrapDiff_delivers hK hm.compression hrmay hs.lockstep (hpos cache hcache)
          hcomp hbase
        obtain ⟨m, hframe, hsized⟩ := h.sized
        exact ⟨m, r', hframe, hsized, hframe ▸ h.outcome, hsynced h, hother h⟩
  · have hno : dp.mayDiffSend = false := by simpa using hdiff
    obtain ⟨r', h⟩ := plainOrCompressed_delivers hK hm.compression hs.lockstep c seq hdata
    obtain ⟨m, hframe, hsized⟩ := h.sized
    simp only [buildFrame, hno]
    refine ⟨m, r', hframe, hsized, hframe ▸ h.outcome, ⟨h.lockstep, ?_⟩, hother h⟩
    intro hrmay
    rw [hmay, hno] at hrmay
    cases hrmay

/-! ## The link -/

/-- An encoded frame on its way, with the payload it was built from. -/
structure Flight where
  connectionId : ConnectionId
  payload : Bytes
  bytes : Bytes

/-- A delivered frame: the payload it was built from and what became of it (`none` when the bytes did
    not decode). -/
structure Delivery where
  connectionId : ConnectionId
  payload : Bytes
  outcome : Option InboundOutcome

structure Link (K : Codecs) where
  sender : Sender K
  wire : List Flight
  receiver : Receiver K
  sent : List (ConnectionId × Bytes)
  delivered : List Delivery

inductive LinkAction where
  | send (c : ConnectionId) (data : Bytes)
  /-- the sender drops its base (resync) -/
  | clear (c : ConnectionId)
  | deliver

/-- Decode the bytes of one frame and apply it. -/
def receive (S : Serde) (rdp : DataPlane) (r : Receiver K) (bytes : Bytes) :
    Option InboundOutcome × Receiver K :=
  match decodeFrame S bytes with
  | .ok (some (frame, _)) =>
    let (outcome, r) := rdp.applyInbound K r frame
    (some outcome, r)
  | _ => (none, r)

namespace Link

/-- A step of the link; a frame that does not encode is not sent. -/
def step (S : Serde) (dp rdp : DataPlane) (s : Link K) : LinkAction → Option (Link K)
  | .send c data =>
    match s.sender.cache with
    | some cache =>
      if data = [] then none
      else
        let (frame, sender) := dp.buildFrame K s.sender c (cache.nextSequenceFor c) data
        match frame.encode S with
        | .ok bytes => some { s with
            sender := sender
            wire := s.wire ++ [⟨c, data, bytes⟩]
            sent := s.sent ++ [(c, data)] }
        | .error _ => none
    | none => none
  | .clear c => some { s with
      sender := { s.sender with cache := s.sender.cache.map fun cache => cache.clearConnection c } }
  | .deliver =>
    match s.wire with
    | [] => none
    | x :: rest =>
      let (outcome, receiver) := receive S rdp s.receiver x.bytes
      some { s with
        wire := rest
        receiver := receiver
        delivered := s.delivered ++ [⟨x.connectionId, x.payload, outcome⟩] }

/-- Two fresh planes with their caches. -/
def init (K : Codecs) (params receiverParams : DiffParams) : Link K where
  sender := ⟨K.newEncoder, some (.withParams params), some .new⟩
  wire := []
  receiver := ⟨K.newDecoder, .withParams receiverParams, .new⟩
  sent := []
  delivered := []

/-! ## The invariant -/

/-- Every frame in flight will be received as the payload it was built from, and after the last one
    the two sides are in step. -/
def Deliverable (S : Serde) (rdp : DataPlane) (s : Sender K) : Receiver K → List Flight → Prop
  | r, [] => Synced rdp s r
  | r, x :: rest => ∃ r', receive S rdp r x.bytes = (some (.payload x.connectionId x.payload), r') ∧
      (∀ d, d ≠ x.connectionId → r'.cache.lastData d = r.cache.lastData d) ∧
      Deliverable S rdp s r' rest

/-- What is in flight stays deliverable when the sender changes in a way that keeps it in step. -/
theorem Deliverable.mono {S : Serde} {rdp : DataPlane} {s t : Sender K}
    (hst : ∀ r, Synced rdp s r → Synced rdp t r) {r : Receiver K} {wire : List Flight}
    (h : Deliverable S rdp s r wire) : Deliverable S rdp t r wire := by
  induction wire generalizing r with
  | nil => exact hst r h
  | cons x rest ih =>
    obtain ⟨r', hrecv, hother, hrest⟩ := h
    exact ⟨r', hrecv, hother, ih hrest⟩

/-- One more frame that a receiver in step will receive. -/
theorem Deliverable.snoc {S : Serde} {rdp : DataPlane} {s t : Sender K} {x : Flight}
    (hx : ∀ r, Synced rdp s r → Deliverable S rdp t r [x]) {r : Receiver K} {wire : List Flight}
    (h : Deliverable S rdp s r wire) : Deliverable S rdp t r (wire ++ [x]) := by
  induction wire generalizing r with
  | nil => exact hx r h
  | cons y rest ih =>
    obtain ⟨r', hrecv, hother, hrest⟩ := h
    exact ⟨r', hrecv, hother, ih hrest⟩

/-- With no frame of a connection in flight, the receiver holds its base already. -/
theorem Deliverable.receiver_base {S : Serde} {rdp : DataPlane} {s : Sender K} {r : Receiver K}
    {wire : List Flight} (h : Deliverable S rdp s r wire) {c : ConnectionId}
    (hc : ∀ x ∈ wire, x.connectionId ≠ c) (hmay : rdp.mayDiffReceive = true)
    {cache : ConnectionDataCache} (hcache : s.cache = some cache) {v : UInt32 × Bytes}
    (hv : cache.lastData c = some v) : r.cache.lastData c = some v := by
  induction wire generalizing r with
  | nil =>
    have hsynced : Synced rdp s r := h
    exact hsynced.base hmay cache hcache c v hv
  | cons x rest ih =>
    obtain ⟨r', hrecv, hother, hrest⟩ := h
    have hne : c ≠ x.connectionId := fun heq => hc x List.mem_cons_self heq.symm
    rw [← hother c hne]
    exact ih hrest fun y hy => hc y (List.mem_cons_of_mem _ hy)

structure Inv (S : Serde) (rdp : DataPlane) (s : Link K) : Prop where
  deliverable : Deliverable S rdp s.sender s.receiver s.wire
  params : ∀ cache, s.sender.cache = some cache → 0 < cache.params.chunkSize
  order : s.sent = s.delivered.map (fun x => (x.connectionId, x.payload)) ++
    s.wire.map fun x => (x.connectionId, x.payload)
  outcomes : ∀ x ∈ s.delivered, x.outcome = some (.payload x.connectionId x.payload)

theorem buildFrame_params {dp : DataPlane} {s : Sender K} {c : ConnectionId} {seq : UInt32}
    {data : Bytes} (h : ∀ cache, s.cache = some cache → 0 < cache.params.chunkSize) :
    ∀ cache, (dp.buildFrame K s c seq data).2.cache = some cache → 0 < cache.params.chunkSize := by
  intro cache hc
  unfold buildFrame at hc
  split at hc
  · rename_i old _ hold
    cases hc
    exact h old hold
  · exact h cache hc

theorem step_inv {S : Serde} {dp rdp : DataPlane} (hK : K.RoundTrips) (hm : Mirrors dp rdp)
    {s t : Link K} {a : LinkAction} (hI : s.Inv S rdp) (h : s.step S dp rdp a = some t) :
    t.Inv S rdp := by
  obtain ⟨hdel, hparams, horder, hout⟩ := hI
  cases a with
  | send c data =>
    simp only [step] at h
    split at h
    · rename_i cache hcache
      split at h
      · contradiction
      · rename_i hdata
        split at h
        · rename_i bytes hbytes
          obtain rfl := Option.some.inj h
          refine ⟨?_, buildFrame_params hparams, ?_, hout⟩
          · -- the new frame is delivered by any receiver that is in step before it
            refine hdel.snoc ?_
            intro r hr
            obtain ⟨m, r', hframe, hsized, happly, hsync, hother⟩ :=
              buildFrame_delivers hK hm hr c (cache.nextSequenceFor c) hdata hparams
            rw [hframe] at hbytes
            refine ⟨r', ?_, hother, hsync⟩
            simp only [receive, decodeFrame_encode_binary hsized hbytes, happly]
          · simp [horder]
        · contradiction
    · contradiction
  | clear c =>
    obtain rfl := Option.some.inj h
    refine ⟨hdel.mono ?_, ?_, horder, hout⟩
    · intro r hr
      refine ⟨hr.lockstep, ?_⟩
      intro hmay cache hcache d v hv
      obtain ⟨old, hold, rfl⟩ := Option.map_eq_some_iff.mp hcache
      have hne : d ≠ c := by
        rintro rfl
        simp [ConnectionDataCache.clearConnection] at hv
      simp only [ConnectionDataCache.clearConnection, if_neg hne] at hv
      exact hr.base hmay old hold d v hv
    · intro cache hcache
      obtain ⟨old, hold, rfl⟩ := Option.map_eq_some_iff.mp hcache
      exact hparams old hold
  | deliver =>
    simp only [step] at h
    split at h
    · contradiction
    · rename_i x rest hwire
      rw [hwire] at hdel horder
      obtain ⟨r', hrecv, -, hrest⟩ := hdel
      rw [hrecv] at h
      obtain rfl := Option.some.inj h
      refine ⟨hrest, hparams, ?_, ?_⟩
      · simp [horder]
      · intro y hy
        rcases List.mem_append.mp hy with hy | hy
        · exact hout y hy
        · rw [List.mem_singleton.mp hy]

/-- **Every payload arrives.** For any sends, clears and deliveries whose frames encode: what has been
    delivered, followed by what is in flight, is what was sent, in order; every delivery returned
    exactly the payload sent; and when diffs are negotiated for the direction, the receiver holds the
    sender's base of every connection that has no frame in flight. -/
theorem link_delivers (S : Serde) (K : Codecs) (hK : K.RoundTrips) (dp rdp : DataPlane)
    (hm : Mirrors dp rdp) (params receiverParams : DiffParams) (hpos : 0 < params.chunkSize)
    (as : List LinkAction) (s : Link K)
    (hr : run (step S dp rdp) (init K params receiverParams) as = some s) :
    s.sent = s.delivered.map (fun x => (x.connectionId, x.payload)) ++
        s.wire.map (fun x => (x.connectionId, x.payload)) ∧
      (∀ x ∈ s.delivered, x.outcome = some (.payload x.connectionId x.payload)) ∧
      (rdp.mayDiffReceive = true → ∀ cache, s.sender.cache = some cache →
        ∀ c v, (∀ x ∈ s.wire, x.connectionId ≠ c) → cache.lastData c = some v →
          s.receiver.cache.lastData c = some v) := by
  have hinit : (init K params receiverParams).Inv S rdp := by
    refine ⟨⟨K.lockstep_new, ?_⟩, ?_, rfl, fun x hx => by cases hx⟩
    · intro _ cache hcache c v hv
      cases hcache
      cases hv
    · intro cache hcache
      cases hcache
      exact hpos
  have hI : s.Inv S rdp := run_inv_all (fun _ _ _ hI h => step_inv hK hm hI h) hinit hr
  refine ⟨hI.order, hI.outcomes, ?_⟩
  intro hmay cache hcache c v hc hv
  exact hI.deliverable.receiver_base hc hmay hcache hv

/-- Codecs that store their input. -/
def storeCodecs : Codecs where
  Encoder := Unit
  Decoder := Unit
  newEncoder := ()
  newDecoder := ()
  streamCompress := fun _ data => (some data, ())
  streamDecompress := fun _ compressed _ => (some compressed, ())
  zstdCompress := some
  zstdDecompress := fun compressed _ => some compressed
  lz4Compress := id
  lz4Decompress := some
  zlibCompress := some
  zlibDecompress := some

theorem storeCodecs_roundTrips : storeCodecs.RoundTrips where
  stream := by
    intro inputs
    induction inputs with
    | nil => trivial
    | cons data inputs ih => exact ⟨rfl, ih⟩
  zstd := by
    intro data c h
    exact h.symm
  lz4 := fun _ => rfl
  zlib := by
    intro data c h
    exact h.symm

/-- A relay that sends diffs of four-byte blocks, uncompressed. -/
def pictureRelay : DataPlane := ⟨.relay, ⟨[.incremental]⟩, none, 256⟩

def pictureClient : DataPlane := ⟨.client, ⟨[.incremental]⟩, none, 256⟩

def pictureParams : DiffParams := ⟨4, 4, fun _ => 0⟩

/-- No JSON message is sent here. -/
def noSerde : Serde := ⟨fun _ => .error "not sent", fun _ _ => .error "not sent"⟩

/-- A full picture, a diff of its second block, a reference to the same picture behind a frame of
    another connection, and a full picture again after a resync. -/
def pictureRun : List LinkAction :=
  [.send ⟨1⟩ [1, 2, 3, 4, 5, 6, 7, 8], .deliver, .send ⟨1⟩ [1, 2, 3, 4, 5, 6, 9, 9], .deliver,
    .send ⟨2⟩ [7], .send ⟨1⟩ [1, 2, 3, 4, 5, 6, 9, 9], .clear ⟨1⟩, .deliver,
    .send ⟨1⟩ [1, 2, 3], .deliver, .deliver]

theorem link_delivers_picture :
    ∃ s, run (step noSerde pictureRelay pictureClient)
        (init storeCodecs pictureParams pictureParams) pictureRun = some s ∧
      s.delivered.length = 5 ∧ pictureClient.mayDiffReceive = true ∧
      s.sent = s.delivered.map (fun x => (x.connectionId, x.payload)) ++
        s.wire.map (fun x => (x.connectionId, x.payload)) ∧
      (∀ x ∈ s.delivered, x.outcome = some (.payload x.connectionId x.payload)) ∧
      (pictureClient.mayDiffReceive = true → ∀ cache, s.sender.cache = some cache →
        ∀ c v, (∀ x ∈ s.wire, x.connectionId ≠ c) → cache.lastData c = some v →
          s.receiver.cache.lastData c = some v) :=
  have hr := Option.eq_some_of_isSome
    (show (run (step noSerde pictureRelay pictureClient)
      (init storeCodecs pictureParams pictureParams) pictureRun).isSome = true by decide +kernel)
  ⟨_, hr, by decide +kernel, by decide +kernel,
    link_delivers noSerde storeCodecs storeCodecs_roundTrips pictureRelay pictureClient
      ⟨rfl, rfl, rfl⟩ pictureParams pictureParams (by decide) pictureRun _ hr⟩

end Link

end RemoteX11.Data
