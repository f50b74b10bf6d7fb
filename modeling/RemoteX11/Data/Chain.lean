/-
  The data-plane policy chain: how a payload becomes a frame and a data frame becomes a payload again
  (`dataplane.rs`, with the one-shot codecs of `compress.rs` and the counters of `stats.rs`).

  The compression libraries are the parameter `Codecs`; the two contexts of the cross-frame stream are
  explicit state. `Codecs.RoundTrips` is what is assumed of them: one-shot output decompresses to its
  input, and a stream decoder that is fed exactly the encoder's fragments in order returns the inputs
  they were made from.
-/
import RemoteX11.Data.Incremental
import RemoteX11.Protocol.Frame

namespace RemoteX11.Data

open RemoteX11.Lib RemoteX11.Protocol

/-! ## Capabilities -/

inductive Capability where
  | requestResync
  | incremental
  | incrementalUplink
  | flowControl
  | x11
  | x11Recode
  | audioForward
  | audioPerApp
  deriving DecidableEq, Repr

/-- The negotiated capabilities, each listed once. -/
structure Features where
  caps : List Capability
  deriving DecidableEq, Repr

def Features.supports (f : Features) (cap : Capability) : Bool := f.caps.contains cap

/-- The switches of `RuntimeConfig` that take part in the negotiation, and the threshold a data plane is
    built with. -/
structure RuntimeConfig where
  imageRecode : Bool
  audioForward : Bool
  audioPerApp : Bool
  flowControl : Bool
  incrementalUplink : Bool
  compressionThreshold : Nat
  deriving DecidableEq, Repr

namespace Capability

/-- `SUPPORTED`. -/
def supported : List Capability :=
  [requestResync, incremental, incrementalUplink, flowControl, x11, x11Recode, audioForward, audioPerApp]

def name : Capability → String
  | requestResync => "request_resync"
  | incremental => "incremental"
  | incrementalUplink => "incremental_uplink"
  | flowControl => "flow_control"
  | x11 => "x11"
  | x11Recode => "x11_recode"
  | audioForward => "audio_forward"
  | audioPerApp => "audio_per_app"

/-- The kill switch of a capability. -/
def enabled (runtime : RuntimeConfig) : Capability → Bool
  | x11Recode => runtime.imageRecode
  | audioForward => runtime.audioForward
  | audioPerApp => runtime.audioPerApp
  | flowControl => runtime.flowControl
  | incrementalUplink => runtime.incrementalUplink
  | _ => true

/-- `advertised_for`. -/
def advertisedFor (runtime : RuntimeConfig) : List String :=
  (supported.filter (enabled runtime)).map name

theorem mem_supported (c : Capability) : c ∈ supported := by
  cases c <;> decide

end Capability

namespace Features

/-- `Features::negotiate`. A set is the list of its elements in order; `SUPPORTED` is in order. -/
def negotiate (client server : List String) : Features :=
  ⟨Capability.supported.filter fun c => client.contains c.name && server.contains c.name⟩

def toList (features : Features) : List String := features.caps.map Capability.name

theorem name_mem_toList_negotiate (client server : List String) (c : Capability) :
    c.name ∈ (negotiate client server).toList ↔ c.name ∈ client ∧ c.name ∈ server := by
  simp only [toList, negotiate, List.mem_map, List.mem_filter, Bool.and_eq_true,
    List.contains_iff_mem]
  constructor
  · rintro ⟨d, ⟨-, hd⟩, hname⟩
    rwa [hname] at hd
  · intro h
    exact ⟨c, ⟨Capability.mem_supported c, h⟩, rfl⟩

/-- The set is the intersection: a name that one side does not know is not in it. -/
theorem mem_toList_negotiate {client server : List String} (hclient : ∀ n ∈ client, ∃ c, n = Capability.name c)
    (n : String) : n ∈ (negotiate client server).toList ↔ n ∈ client ∧ n ∈ server := by
  constructor
  · intro h
    obtain ⟨c, -, rfl⟩ := List.mem_map.mp h
    exact (name_mem_toList_negotiate client server c).mp h
  · intro h
    obtain ⟨c, rfl⟩ := hclient n h.1
    exact (name_mem_toList_negotiate client server c).mpr h

/-- What the server echoes is negotiated again by the client, to the same set. -/
theorem negotiate_echo (client server : List String) :
    negotiate client (negotiate client server).toList = negotiate client server := by
  have h := name_mem_toList_negotiate client server
  generalize (negotiate client server).toList = echo at h
  unfold negotiate
  congr 1
  apply List.filter_congr
  intro c _
  rw [Bool.eq_iff_iff]
  simp only [Bool.and_eq_true, List.contains_iff_mem]
  rw [h c]
  tauto

end Features

/-! ## Codecs -/

/-- The compression libraries. A stream call returns its context as it is afterwards, also when it
    fails. -/
structure Codecs where
  Encoder : Type
  Decoder : Type
  newEncoder : Encoder
  newDecoder : Decoder
  streamCompress : Encoder → Bytes → Option Bytes × Encoder
  streamDecompress : Decoder → Bytes → Nat → Option Bytes × Decoder
  zstdCompress : Bytes → Option Bytes
  zstdDecompress : Bytes → Nat → Option Bytes
  lz4Compress : Bytes → Bytes
  lz4Decompress : Bytes → Option Bytes
  zlibCompress : Bytes → Option Bytes
  zlibDecompress : Bytes → Option Bytes

namespace Codecs

variable (K : Codecs)

/-- What a stream encoder makes of a list of inputs: each input it accepted with its fragment, and
    the context afterwards. -/
def encodeAll : K.Encoder → List Bytes → List (Bytes × Bytes) × K.Encoder
  | enc, [] => ([], enc)
  | enc, data :: inputs =>
    match K.streamCompress enc data with
    | (some fragment, enc) =>
      let (rest, enc) := encodeAll enc inputs
      ((data, fragment) :: rest, enc)
    | (none, enc) => encodeAll enc inputs

/-- The decoder returns the input of every fragment it is fed. -/
def Decodes : K.Decoder → List (Bytes × Bytes) → Prop
  | _, [] => True
  | dec, (data, fragment) :: rest =>
    (K.streamDecompress dec fragment data.length).1 = some data ∧
      Decodes (K.streamDecompress dec fragment data.length).2 rest

/-- The decoder's context after a list of fragments. -/
def decodeAll : K.Decoder → List (Bytes × Bytes) → K.Decoder
  | dec, [] => dec
  | dec, (data, fragment) :: rest => decodeAll (K.streamDecompress dec fragment data.length).2 rest

/-- The compressors round-trip. -/
structure RoundTrips : Prop where
  stream : ∀ inputs, K.Decodes K.newDecoder (K.encodeAll K.newEncoder inputs).1
  zstd : ∀ data c, K.zstdCompress data = some c → K.zstdDecompress c data.length = some data
  lz4 : ∀ data, K.lz4Decompress (K.lz4Compress data) = some data
  zlib : ∀ data c, K.zlibCompress data = some c → K.zlibDecompress c = some data

theorem encodeAll_snoc (enc : K.Encoder) (inputs : List Bytes) (data : Bytes) :
    K.encodeAll enc (inputs ++ [data]) =
      match K.streamCompress (K.encodeAll enc inputs).2 data with
      | (some fragment, enc') => ((K.encodeAll enc inputs).1 ++ [(data, fragment)], enc')
      | (none, enc') => ((K.encodeAll enc inputs).1, enc') := by
  induction inputs generalizing enc with
  | nil =>
    simp only [List.nil_append, encodeAll]
  | cons x inputs ih =>
    simp only [List.cons_append, encodeAll]
    split
    · rename_i fragment enc' hx
      rw [ih enc']
      rcases K.streamCompress (K.encodeAll enc' inputs).2 data with ⟨_ | g, enc''⟩
      · rfl
      · rfl
    · rename_i enc' hx
      rw [ih enc']

theorem decodes_append (dec : K.Decoder) (l m : List (Bytes × Bytes)) :
    K.Decodes dec (l ++ m) ↔ K.Decodes dec l ∧ K.Decodes (K.decodeAll dec l) m := by
  induction l generalizing dec with
  | nil => simp [Decodes, decodeAll]
  | cons x l ih =>
    obtain ⟨data, fragment⟩ := x
    rw [List.cons_append, Decodes, Decodes, decodeAll, ih, and_assoc]

theorem decodeAll_snoc (dec : K.Decoder) (l : List (Bytes × Bytes)) (data fragment : Bytes) :
    K.decodeAll dec (l ++ [(data, fragment)]) =
      (K.streamDecompress (K.decodeAll dec l) fragment data.length).2 := by
  induction l generalizing dec with
  | nil => rfl
  | cons x l ih =>
    obtain ⟨d, f⟩ := x
    rw [List.cons_append, decodeAll, decodeAll, ih]

/-- The decoder has been fed exactly the encoder's fragments. -/
def Lockstep (enc : K.Encoder) (dec : K.Decoder) : Prop :=
  ∃ inputs, enc = (K.encodeAll K.newEncoder inputs).2 ∧
    dec = K.decodeAll K.newDecoder (K.encodeAll K.newEncoder inputs).1

theorem lockstep_new : K.Lockstep K.newEncoder K.newDecoder := ⟨[], rfl, rfl⟩

/-- One more input: its fragment, if there is one, decodes and keeps the two in lockstep. -/
theorem Lockstep.step {K : Codecs} (hK : K.RoundTrips) {enc enc' : K.Encoder} {dec : K.Decoder}
    (h : K.Lockstep enc dec) (data : Bytes) {r : Option Bytes}
    (hc : K.streamCompress enc data = (r, enc')) :
    match r with
    | some fragment =>
      (K.streamDecompress dec fragment data.length).1 = some data ∧
        K.Lockstep enc' (K.streamDecompress dec fragment data.length).2
    | none => K.Lockstep enc' dec := by
  obtain ⟨inputs, henc, hdec⟩ := h
  have hsnoc := K.encodeAll_snoc K.newEncoder inputs data
  rw [← henc, hc] at hsnoc
  cases r with
  | none => exact ⟨inputs ++ [data], by rw [hsnoc], by rw [hsnoc, hdec]⟩
  | some fragment =>
    have hall := hK.stream (inputs ++ [data])
    rw [hsnoc, decodes_append, ← hdec] at hall
    refine ⟨hall.2.1, inputs ++ [data], by rw [hsnoc], ?_⟩
    rw [hsnoc, decodeAll_snoc, ← hdec]

end Codecs

/-! ## Counters -/

/-- `Savings`: bytes saved and the number of frames that saved any. -/
structure Savings where
  saved : Nat
  frames : Nat
  deriving DecidableEq, Repr

def Savings.record (s : Savings) (saved : Nat) : Savings :=
  if saved > 0 then ⟨s.saved + saved, s.frames + 1⟩ else s

/-- The lifetime totals of `ConnectionStats` that the data plane touches. -/
structure ConnectionStats where
  bytesSent : Nat
  bytesReceived : Nat
  compression : Savings
  incremental : Savings
  incrementalCompression : Savings
  deriving DecidableEq, Repr

namespace ConnectionStats

def new : ConnectionStats := ⟨0, 0, ⟨0, 0⟩, ⟨0, 0⟩, ⟨0, 0⟩⟩

def addBytesSent (s : ConnectionStats) (n : Nat) : ConnectionStats :=
  { s with bytesSent := s.bytesSent + n }

def addBytesReceived (s : ConnectionStats) (n : Nat) : ConnectionStats :=
  { s with bytesReceived := s.bytesReceived + n }

def addCompressionSaved (s : ConnectionStats) (n : Nat) : ConnectionStats :=
  { s with compression := s.compression.record n }

def addIncrementalSaved (s : ConnectionStats) (n : Nat) : ConnectionStats :=
  { s with incremental := s.incremental.record n }

def addIncrementalCompressionSaved (s : ConnectionStats) (n : Nat) : ConnectionStats :=
  { s with incrementalCompression := s.incrementalCompression.record n }

end ConnectionStats

/-- `record_outbound`. -/
def recordOutbound (stats : ConnectionStats) (frame : Frame) (originalLen : Nat) :
    ConnectionStats :=
  match frame with
  | .binary (.streamData m) => stats.addBytesSent m.data.length
  | .binary (.compressedStreamData m) =>
    (stats.addBytesSent m.data.length).addCompressionSaved (m.originalLen - m.data.length)
  | .binary (.incrementalStreamData m) =>
    (stats.addBytesSent (chunksLen m.chunks)).addIncrementalSaved
      (originalLen - chunksLen m.chunks)
  | .binary (.compressedIncrementalStreamData m) =>
    ((stats.addBytesSent m.data.length).addIncrementalSaved
      (originalLen - m.originalLen)).addIncrementalCompressionSaved
        (m.originalLen - m.data.length)
  | _ => stats

/-! ## The chain -/

inductive DataPlaneSide where
  | relay
  | client
  deriving DecidableEq, Repr

def DataPlaneSide.opposite : DataPlaneSide → DataPlaneSide
  | .relay => .client
  | .client => .relay

structure DataPlane where
  side : DataPlaneSide
  features : Features
  compression : Option CompressionAlgo
  compressionThreshold : Nat
  deriving DecidableEq, Repr

inductive InboundOutcome where
  | payload (connectionId : ConnectionId) (data : Bytes)
  | resyncRequired (connectionId : ConnectionId)
  | dropped
  | streamBroken
  deriving DecidableEq, Repr

/-- Keep a compressed form that is smaller than its input. -/
def ifSmaller (data : Bytes) (compressed : Option Bytes) : Option Bytes :=
  compressed.filter fun c => c.length < data.length

namespace DataPlane

variable (K : Codecs) (dp : DataPlane)

def mayDiffSend : Bool :=
  dp.features.supports .incremental &&
    (dp.side == .relay || dp.features.supports .incrementalUplink)

def mayDiffReceive : Bool :=
  dp.features.supports .incremental &&
    (dp.side == .client || dp.features.supports .incrementalUplink)

/-- `compress`. Below the threshold the encoder is not touched; the stream never rejects what its
    encoder has consumed. -/
def compress (enc : K.Encoder) (data : Bytes) : Option Bytes × K.Encoder :=
  match dp.compression with
  | none => (none, enc)
  | some algo =>
    if data.length < dp.compressionThreshold then (none, enc)
    else
      match algo with
      | .zstdStream => K.streamCompress enc data
      | .zstd => (ifSmaller data (K.zstdCompress data), enc)
      | .lz4 => (ifSmaller data (some (K.lz4Compress data)), enc)
      | .zlib => (ifSmaller data (K.zlibCompress data), enc)

/-- The result of a decompressor, when it has the announced length. -/
def ofLength (originalLen : Nat) (result : Option Bytes) : Option Bytes :=
  result.filter fun out => out.length = originalLen

/-- `decompress_payload`. -/
def decompressPayload (dec : K.Decoder) (compressed : Bytes) (originalLen : Nat) :
    Option Bytes × K.Decoder :=
  match dp.compression with
  | none => (none, dec)
  | some .zstd => (ofLength originalLen (K.zstdDecompress compressed originalLen), dec)
  | some .zstdStream =>
    -- an empty payload does not reach the decoder
    if originalLen = 0 then (some [], dec) else K.streamDecompress dec compressed originalLen
  | some .lz4 => (ofLength originalLen (K.lz4Decompress compressed), dec)
  | some .zlib => (ofLength originalLen (K.zlibDecompress compressed), dec)

def plainOrCompressed (enc : K.Encoder) (c : ConnectionId) (sequenceId : UInt32) (data : Bytes) :
    Frame × K.Encoder :=
  match dp.compress K enc data with
  | (some compressed, enc) =>
    (.binary (.compressedStreamData ⟨c, sequenceId, data.length, compressed⟩), enc)
  | (none, enc) => (.binary (.streamData ⟨c, sequenceId, data⟩), enc)

/-- `wrap_diff`: the encoded diff is compressed when there is an algorithm. -/
def wrapDiff (enc : K.Encoder) (diff : IncrementalStreamDataMessage) (c : ConnectionId)
    (sequenceId : UInt32) : Frame × K.Encoder :=
  if dp.compression.isSome then
    match diff.encodePayload with
    | .ok encoded =>
      match dp.compress K enc encoded with
      | (some compressed, enc) =>
        (.binary (.compressedIncrementalStreamData ⟨c, sequenceId, encoded.length, compressed⟩),
          enc)
      | (none, enc) => (.binary (.incrementalStreamData diff), enc)
    | .error _ => (.binary (.incrementalStreamData diff), enc)
  else (.binary (.incrementalStreamData diff), enc)

/-- What a sender carries from frame to frame. -/
structure Sender where
  encoder : K.Encoder
  cache : Option ConnectionDataCache
  stats : Option ConnectionStats

/-- `build_frame`. -/
def buildFrame (s : Sender K) (c : ConnectionId) (sequenceId : UInt32) (data : Bytes) :
    Frame × Sender K :=
  match dp.mayDiffSend, s.cache with
  | true, some cache =>
    let (frame, enc) :=
      match cache.computeIncremental c sequenceId data with
      | some diff => dp.wrapDiff K s.encoder diff c sequenceId
      | none => dp.plainOrCompressed K s.encoder c sequenceId data
    (frame, ⟨enc, some (cache.updateCacheOwned c sequenceId data),
      s.stats.map fun st => recordOutbound st frame data.length⟩)
  | _, cache =>
    let (frame, enc) := dp.plainOrCompressed K s.encoder c sequenceId data
    (frame, ⟨enc, cache, s.stats.map fun st => recordOutbound st frame data.length⟩)

/-- What a receiver carries from frame to frame. -/
structure Receiver where
  decoder : K.Decoder
  cache : ConnectionDataCache
  stats : ConnectionStats

/-- `apply_diff`. -/
def applyDiff (r : Receiver K) (msg : IncrementalStreamDataMessage) :
    InboundOutcome × Receiver K :=
  match r.cache.applyIncremental msg with
  | none => (.resyncRequired msg.connectionId, r)
  | some (data, cache) =>
    (.payload msg.connectionId data,
      { r with
        cache := cache
        stats := (r.stats.addIncrementalSaved (msg.totalLen - chunksLen msg.chunks)).addBytesReceived
          data.length })

/-- Deliver a payload, keeping it as a base when this direction can see diffs. -/
def keep (r : Receiver K) (c : ConnectionId) (sequenceId : UInt32) (data : Bytes) : Receiver K :=
  if dp.mayDiffReceive then { r with cache := r.cache.updateCacheOwned c sequenceId data } else r

/-- `apply_inbound`. -/
def applyInbound (r : Receiver K) : Frame → InboundOutcome × Receiver K
  | .binary (.streamData m) =>
    let r := { r with stats := r.stats.addBytesReceived m.data.length }
    (.payload m.connectionId m.data, dp.keep K r m.connectionId m.sequenceId m.data)
  | .binary (.compressedStreamData m) =>
    if dp.compression.isNone then (.dropped, r)
    else
      match dp.decompressPayload K r.decoder m.data m.originalLen with
      | (none, dec) => (.streamBroken, { r with decoder := dec })
      | (some data, dec) =>
        let stats := (r.stats.addCompressionSaved (m.originalLen - m.data.length)).addBytesReceived
          data.length
        (.payload m.connectionId data,
          dp.keep K { r with decoder := dec, stats := stats } m.connectionId m.sequenceId data)
  | .binary (.incrementalStreamData m) =>
    if dp.mayDiffReceive then applyDiff K r m else (.dropped, r)
  | .binary (.compressedIncrementalStreamData m) =>
    if dp.mayDiffReceive = false then (.dropped, r)
    else if dp.compression.isNone then (.dropped, r)
    else
      match dp.decompressPayload K r.decoder m.data m.originalLen with
      | (none, dec) => (.streamBroken, { r with decoder := dec })
      | (some diffBytes, dec) =>
        let r := { r with
          decoder := dec
          stats := r.stats.addIncrementalCompressionSaved (m.originalLen - m.data.length) }
        match IncrementalStreamDataMessage.decodePayload diffBytes with
        | .ok msg => applyDiff K r msg
        | .error _ => (.resyncRequired m.connectionId, r)
  | _ => (.dropped, r)

/-! ## A frame and its reading -/

/-- What one plane may send as a diff, the plane of the other side may receive. -/
theorem mayDiffReceive_opposite {dp rdp : DataPlane} (hside : rdp.side = dp.side.opposite)
    (hfeat : rdp.features = dp.features) : rdp.mayDiffReceive = dp.mayDiffSend := by
  unfold mayDiffReceive mayDiffSend
  rw [hfeat, hside]
  cases dp.side <;> rfl

theorem ifSmaller_eq_some {data c : Bytes} {r : Option Bytes} (h : ifSmaller data r = some c) :
    r = some c := (Option.filter_eq_some_iff.mp h).1

theorem ofLength_self (data : Bytes) : ofLength data.length (some data) = some data := by
  simp [ofLength]

variable {K}

/-- A payload that was compressed decompresses on the other side, and the stream contexts stay in
    lockstep. -/
theorem compress_some {dp rdp : DataPlane} (hK : K.RoundTrips)
    (hcomp : rdp.compression = dp.compression) {enc enc' : K.Encoder} {dec : K.Decoder}
    (hl : K.Lockstep enc dec) {data z : Bytes} (hdata : data ≠ [])
    (h : dp.compress K enc data = (some z, enc')) :
    rdp.compression.isNone = false ∧
      ∃ dec', rdp.decompressPayload K dec z data.length = (some data, dec') ∧
        K.Lockstep enc' dec' := by
  have hlen : data.length ≠ 0 := fun h0 => hdata (List.eq_nil_of_length_eq_zero h0)
  unfold compress at h
  unfold decompressPayload
  rw [hcomp]
  cases halgo : dp.compression with
  | none => simp [halgo] at h
  | some algo =>
    simp only [halgo] at h
    split at h
    · cases h
    · refine ⟨rfl, ?_⟩
      cases algo with
      | zstdStream =>
        have hstep := hl.step hK data h
        rw [if_neg hlen]
        exact ⟨_, Prod.ext hstep.1 rfl, hstep.2⟩
      | zstd =>
        simp only [Prod.mk.injEq] at h
        obtain ⟨hz, rfl⟩ := h
        have hdec := hK.zstd data z (ifSmaller_eq_some hz)
        exact ⟨dec, by simp only [hdec, ofLength_self], hl⟩
      | lz4 =>
        simp only [Prod.mk.injEq] at h
        obtain ⟨hz, rfl⟩ := h
        have hc : K.lz4Compress data = z := Option.some.inj (ifSmaller_eq_some hz)
        have hdec := hK.lz4 data
        rw [hc] at hdec
        exact ⟨dec, by simp only [hdec, ofLength_self], hl⟩
      | zlib =>
        simp only [Prod.mk.injEq] at h
        obtain ⟨hz, rfl⟩ := h
        have hdec := hK.zlib data z (ifSmaller_eq_some hz)
        exact ⟨dec, by simp only [hdec, ofLength_self], hl⟩

/-- A payload that was not compressed leaves the contexts in lockstep. -/
theorem compress_none {dp : DataPlane} (hK : K.RoundTrips) {enc enc' : K.Encoder}
    {dec : K.Decoder} (hl : K.Lockstep enc dec) {data : Bytes}
    (h : dp.compress K enc data = (none, enc')) : K.Lockstep enc' dec := by
  unfold compress at h
  split at h
  · cases h
    exact hl
  · split at h
    · cases h
      exact hl
    · split at h
      · exact hl.step hK data h
      all_goals
        rw [Prod.mk.injEq] at h
        exact h.2 ▸ hl

/-- The receiver hands out the payload, the contexts stay in lockstep, and the payload becomes the
    base of its connection when this direction keeps one. -/
structure Delivers (rdp : DataPlane) (r : Receiver K) (frame : Frame) (enc' : K.Encoder)
    (c : ConnectionId) (seq : UInt32) (data : Bytes) (r' : Receiver K) : Prop where
  outcome : rdp.applyInbound K r frame = (.payload c data, r')
  lockstep : K.Lockstep enc' r'.decoder
  base : r'.cache = if rdp.mayDiffReceive then r.cache.updateCacheOwned c seq data else r.cache
  sized : ∃ m : BinaryMessage, frame = .binary m ∧ m.ChunksSized

@[simp] theorem keep_decoder (dp : DataPlane) (r : Receiver K) (c : ConnectionId) (seq : UInt32)
    (data : Bytes) : (dp.keep K r c seq data).decoder = r.decoder := by
  unfold keep
  split <;> rfl

theorem keep_cache (dp : DataPlane) (r : Receiver K) (c : ConnectionId) (seq : UInt32)
    (data : Bytes) : (dp.keep K r c seq data).cache =
      if dp.mayDiffReceive then r.cache.updateCacheOwned c seq data else r.cache := by
  unfold keep
  split <;> rfl

theorem plainOrCompressed_delivers {dp rdp : DataPlane} (hK : K.RoundTrips)
    (hcomp : rdp.compression = dp.compression) {enc : K.Encoder} {r : Receiver K}
    (hl : K.Lockstep enc r.decoder) (c : ConnectionId) (seq : UInt32) {data : Bytes}
    (hdata : data ≠ []) :
    ∃ r', Delivers rdp r (dp.plainOrCompressed K enc c seq data).1
      (dp.plainOrCompressed K enc c seq data).2 c seq data r' := by
  rcases hc : dp.compress K enc data with ⟨_ | z, enc'⟩
  · simp only [plainOrCompressed, hc]
    refine ⟨_, rfl, ?_, keep_cache _ _ _ _ _, _, rfl, trivial⟩
    rw [keep_decoder]
    exact compress_none hK hl hc
  · obtain ⟨hsome, dec', hdec, hl'⟩ := compress_some hK hcomp hl hdata hc
    simp only [plainOrCompressed, hc]
    have happly : ∃ stats, rdp.applyInbound K r
        (.binary (.compressedStreamData ⟨c, seq, data.length, z⟩)) =
          (.payload c data, rdp.keep K ⟨dec', r.cache, stats⟩ c seq data) := by
      simp only [applyInbound, hsome, hdec]
      exact ⟨_, rfl⟩
    obtain ⟨stats, happly⟩ := happly
    exact ⟨_, happly, by rw [keep_decoder]; exact hl', keep_cache _ _ _ _ _, _, rfl, trivial⟩

/-- What `encode_payload` returns is the payload of the diff's own frame. -/
theorem encodePayload_ok {m : IncrementalStreamDataMessage} {b : Bytes}
    (h : m.encodePayload = .ok b) : b = (BinaryMessage.incrementalStreamData m).payload ∧
      (BinaryMessage.incrementalStreamData m).Fits := by
  unfold IncrementalStreamDataMessage.encodePayload at h
  rcases hv : encodeIncrementalInto m [] with ⟨_ | _, buf⟩
  · simp [hv] at h
  · simp only [hv] at h
    split at h
    · contradiction
    · obtain rfl := Except.ok.inj h
      have hinto : (BinaryMessage.incrementalStreamData m).encodePayloadInto [] =
          (.ok (), buf) := hv
      simpa using BinaryMessage.encodePayloadInto_ok hinto

theorem encodePayload_ne_nil {m : IncrementalStreamDataMessage} {b : Bytes}
    (h : m.encodePayload = .ok b) : b ≠ [] := by
  intro hnil
  have hlen := congrArg List.length ((encodePayload_ok h).1.symm.trans hnil)
  simp [BinaryMessage.payload] at hlen

/-- What `encode_payload` returns decodes to the diff. -/
theorem decodePayload_encodePayload {m : IncrementalStreamDataMessage} {b : Bytes}
    (hs : ∀ x ∈ m.chunks, ChunkSized x) (h : m.encodePayload = .ok b) :
    IncrementalStreamDataMessage.decodePayload b = .ok m := by
  obtain ⟨rfl, hfit⟩ := encodePayload_ok h
  exact BinaryMessage.decodePayload_incremental m hfit hs

/-- A diff against a base that the receiver holds is applied to the payload. -/
theorem applyDiff_delivers {r : Receiver K} {cache : ConnectionDataCache} {c : ConnectionId}
    {seq : UInt32} {data : Bytes} {diff : IncrementalStreamDataMessage}
    (hpos : 0 < cache.params.chunkSize) (hd : cache.computeIncremental c seq data = some diff)
    (hbase : ∀ v, cache.lastData c = some v → r.cache.lastData c = some v) :
    ∃ stats, applyDiff K r diff =
      (.payload c data, ⟨r.decoder, r.cache.updateCacheOwned c seq data, stats⟩) := by
  obtain ⟨_, _, _, hconn, _⟩ := computeIncremental_spec hpos hd
  unfold applyDiff
  rw [applyIncremental_computeIncremental hpos hd hbase, hconn]
  exact ⟨_, rfl⟩

theorem wrapDiff_delivers {dp rdp : DataPlane} (hK : K.RoundTrips)
    (hcomp : rdp.compression = dp.compression) (hdiff : rdp.mayDiffReceive = true)
    {enc : K.Encoder} {r : Receiver K} (hl : K.Lockstep enc r.decoder)
    {cache : ConnectionDataCache} (hpos : 0 < cache.params.chunkSize) {c : ConnectionId}
    {seq : UInt32} {data : Bytes} {diff : IncrementalStreamDataMessage}
    (hd : cache.computeIncremental c seq data = some diff)
    (hbase : ∀ v, cache.lastData c = some v → r.cache.lastData c = some v) :
    ∃ r', Delivers rdp r (dp.wrapDiff K enc diff c seq).1 (dp.wrapDiff K enc diff c seq).2
      c seq data r' := by
  obtain ⟨_, _, _, _, _, _, _, hsized, _⟩ := computeIncremental_spec hpos hd
  -- the uncompressed form, whatever the encoder did
  have hplain : ∀ enc', K.Lockstep enc' r.decoder →
      ∃ r', Delivers rdp r (.binary (.incrementalStreamData diff)) enc' c seq data r' := by
    intro enc' hl'
    obtain ⟨stats, happly⟩ := applyDiff_delivers hpos hd hbase
    have hinbound : rdp.applyInbound K r (.binary (.incrementalStreamData diff)) =
        (.payload c data, ⟨r.decoder, r.cache.updateCacheOwned c seq data, stats⟩) := by
      simp only [applyInbound, hdiff, if_true, happly]
    exact ⟨_, hinbound, hl', by simp only [hdiff, if_true], _, rfl, hsized⟩
  unfold wrapDiff
  split
  · rcases henc : diff.encodePayload with e | encoded
    · exact hplain enc hl
    · have hdecode := decodePayload_encodePayload hsized henc
      rcases hc : dp.compress K enc encoded with ⟨_ | z, enc'⟩
      · simp only [hc]
        exact hplain enc' (compress_none hK hl hc)
      · obtain ⟨hsome, dec', hdec, hl'⟩ := compress_some hK hcomp hl (encodePayload_ne_nil henc) hc
        simp only [hc]
        have happly : ∃ stats, rdp.applyInbound K r
            (.binary (.compressedIncrementalStreamData ⟨c, seq, encoded.length, z⟩)) =
              (.payload c data, ⟨dec', r.cache.updateCacheOwned c seq data, stats⟩) := by
          simp only [applyInbound, hdiff, hsome, hdec, hdecode]
          exact applyDiff_delivers hpos hd hbase
        obtain ⟨stats, happly⟩ := happly
        exact ⟨_, happly, hl', by simp only [hdiff, if_true], _, rfl, trivial⟩
  · exact hplain enc hl

end DataPlane

end RemoteX11.Data
