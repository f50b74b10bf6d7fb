/-
  Which frames encode: the bounds on a payload that `build_frame` and `encode_into` put together
  (`dataplane.rs`, `incremental.rs`, `protocol/binary.rs`).

  A frame is refused above `MAX_FRAME_SIZE`, and a diff also above 65535 chunks. `built_frames_encode`
  is the bound on the inputs. A chunk of the read loops meets it with blocks of five bytes or more
  (`read_payload_encodes`); a unit of the re-encoder may be a raw request above the limit.
-/
import RemoteX11.Data.Link
import RemoteX11.Recode.Machine

namespace RemoteX11.Data

open RemoteX11.Lib RemoteX11.Protocol Link

/-! ## The bytes of a diff -/

/-- A block that differs starts inside the payload. -/
theorem changedBlocks_lt {chunkSize : Nat} (hpos : 0 < chunkSize) {old new : Bytes} {i : Nat}
    (h : i ∈ changedBlocks chunkSize old new) : i * chunkSize < new.length := by
  by_contra hge
  have hrange := List.mem_range.mp (List.mem_filter.mp h).1
  have hmul : (i + 1) * chunkSize ≤ new.length + chunkSize - 1 :=
    Nat.le_trans (Nat.mul_le_mul_right _ hrange) (Nat.div_mul_le_self _ _)
  rw [Nat.succ_mul] at hmul
  omega

theorem blockAt_length_le (chunkSize : Nat) (new : Bytes) (offset : Nat) :
    (blockAt chunkSize new offset).length ≤ new.length := by
  unfold blockAt
  split
  · rw [List.length_take, List.length_drop]
    omega
  · exact Nat.zero_le _

theorem blockChunks_sum (chunkSize : Nat) (new : Bytes) (blocks : List Nat) :
    ((blocks.map (blockChunk chunkSize new)).map fun c => 8 + c.data.length).sum =
      8 * blocks.length + (blocks.map fun i => (blockAt chunkSize new (i * chunkSize)).length).sum := by
  induction blocks with
  | nil => rfl
  | cons i blocks ih =>
    simp only [List.map_cons, List.sum_cons, ih, List.length_cons, blockChunk]
    omega

theorem chunksLen_blockChunks (chunkSize : Nat) (new : Bytes) (blocks : List Nat) :
    chunksLen (blocks.map (blockChunk chunkSize new)) =
      (blocks.map fun i => (blockAt chunkSize new (i * chunkSize)).length).sum := by
  unfold chunksLen
  rw [List.map_map]
  rfl

/-- Blocks do not overlap: together they are no longer than the payload. -/
theorem blocks_sum_le {chunkSize : Nat} (new : Bytes) (p : Nat → Bool) (m : Nat) :
    ((((List.range m).filter p).map fun i => (blockAt chunkSize new (i * chunkSize)).length).sum ≤
      min (m * chunkSize) new.length) := by
  induction m with
  | zero => exact Nat.zero_le _
  | succ m ih =>
    have hblock : (blockAt chunkSize new (m * chunkSize)).length ≤
        min (m * chunkSize + chunkSize) new.length - min (m * chunkSize) new.length := by
      by_cases hstart : m * chunkSize < new.length
      · rw [(blockAt_eq hstart rfl).2]
        omega
      · have hnil : blockAt chunkSize new (m * chunkSize) = [] := if_neg hstart
        rw [hnil]
        exact Nat.zero_le _
    rw [List.range_succ, List.filter_append, List.map_append, List.sum_append, Nat.succ_mul]
    cases hp : p m with
    | false =>
      rw [List.filter_cons_of_neg (by simp [hp])]
      simp only [List.filter_nil, List.map_nil, List.sum_nil]
      omega
    | true =>
      rw [List.filter_cons_of_pos hp]
      simp only [List.filter_nil, List.map_cons, List.map_nil, List.sum_cons, List.sum_nil]
      omega

theorem changedLen_le (chunkSize : Nat) (old new : Bytes) :
    changedLen chunkSize old new ≤ new.length :=
  Nat.le_trans (blocks_sum_le new _ _) (Nat.min_le_right _ _)

theorem changedBlocks_length_le (chunkSize : Nat) (old new : Bytes) :
    (changedBlocks chunkSize old new).length ≤ (new.length + chunkSize - 1) / chunkSize := by
  have h := List.length_filter_le (fun i => decide
    (blockAt chunkSize new (i * chunkSize) ≠ blockAt chunkSize old (i * chunkSize)))
    (List.range ((new.length + chunkSize - 1) / chunkSize))
  rwa [List.length_range] at h

/-- A diff fits a frame when it has few enough blocks and bytes. -/
theorem diff_fits_iff (c : ConnectionId) (seq base : UInt32) {chunkSize : Nat} (hpos : 0 < chunkSize)
    (old new : Bytes) (m : BinaryMessage) (hm : m = .incrementalStreamData ⟨c, seq, base, new.length,
      (changedBlocks chunkSize old new).map (blockChunk chunkSize new)⟩) :
    m.Fits ∧ m.payloadLen ≤ maxFrameSize ↔ new.length < 2 ^ 32 ∧
      (changedBlocks chunkSize old new).length < 2 ^ 16 ∧
      18 + 8 * (changedBlocks chunkSize old new).length + changedLen chunkSize old new ≤ maxFrameSize := by
  subst hm
  simp only [BinaryMessage.Fits, BinaryMessage.payloadLen, List.length_map, blockChunks_sum]
  rw [← changedLen]
  constructor
  · rintro ⟨⟨htotal, hcount, -⟩, hlen⟩
    exact ⟨htotal, hcount, by omega⟩
  · rintro ⟨htotal, hcount, hlen⟩
    refine ⟨⟨htotal, hcount, ?_⟩, by omega⟩
    intro x hx
    obtain ⟨i, hi, rfl⟩ := List.mem_map.mp hx
    exact ⟨Nat.lt_trans (changedBlocks_lt hpos hi) htotal,
      Nat.lt_of_le_of_lt (blockAt_length_le _ _ _) htotal⟩

/-! ## What build_frame sends -/

namespace DataPlane

variable (K : Codecs) (dp : DataPlane)

/-- The diff a sender makes of a payload, if it makes one. -/
def diffOf (s : Sender K) (c : ConnectionId) (sequenceId : UInt32) (data : Bytes) :
    Option IncrementalStreamDataMessage :=
  if dp.mayDiffSend then s.cache.bind fun cache => cache.computeIncremental c sequenceId data else none

/-- What the compressor makes of `body`, if anything, fits a frame. -/
def CompressedFits (enc : K.Encoder) (body : Bytes) : Prop :=
  ∀ z, (dp.compress K enc body).1 = some z → body.length < 2 ^ 32 ∧ 12 + z.length ≤ maxFrameSize

/-- The bounds on a payload. -/
structure Encodable (s : Sender K) (c : ConnectionId) (sequenceId : UInt32) (data : Bytes) : Prop where
  /-- sent whole, it is within the limit, or the compressor makes something that is -/
  whole : dp.diffOf K s c sequenceId data = none → dp.CompressedFits K s.encoder data ∧
    ((dp.compress K s.encoder data).1 = none → 8 + data.length ≤ maxFrameSize)
  /-- sent as a diff, the blocks that changed are few enough, and within the limit -/
  diff : ∀ d, dp.diffOf K s c sequenceId data = some d →
    dp.CompressedFits K s.encoder (BinaryMessage.incrementalStreamData d).payload ∧
    data.length < 2 ^ 32 ∧
    ∀ cache ∈ s.cache, ∀ base old, cache.lastData c = some (base, old) →
      (changedBlocks cache.params.chunkSize old data).length < 2 ^ 16 ∧
      18 + 8 * (changedBlocks cache.params.chunkSize old data).length +
        changedLen cache.params.chunkSize old data ≤ maxFrameSize

variable {K dp}

theorem buildFrame_frame (s : Sender K) (c : ConnectionId) (seq : UInt32) (data : Bytes) :
    (dp.buildFrame K s c seq data).1 =
      match dp.diffOf K s c seq data with
      | some d => (dp.wrapDiff K s.encoder d c seq).1
      | none => (dp.plainOrCompressed K s.encoder c seq data).1 := by
  unfold buildFrame diffOf
  cases dp.mayDiffSend with
  | false => rfl
  | true =>
    cases s.cache with
    | none => rfl
    | some cache =>
      simp only [if_true, Option.bind_some]
      cases cache.computeIncremental c seq data with
      | none => rfl
      | some d => rfl

theorem plainOrCompressed_encodes_iff (S : Serde) (enc : K.Encoder) (c : ConnectionId) (seq : UInt32)
    (data out : Bytes) :
    ((dp.plainOrCompressed K enc c seq data).1.encodeInto S out).1 = .ok () ↔
      dp.CompressedFits K enc data ∧
        ((dp.compress K enc data).1 = none → 8 + data.length ≤ maxFrameSize) := by
  unfold plainOrCompressed CompressedFits
  rcases dp.compress K enc data with ⟨_ | z, enc'⟩
  · rw [encodeInto_binary_ok_iff]
    simp [BinaryMessage.Fits, BinaryMessage.payloadLen]
  · rw [encodeInto_binary_ok_iff]
    simp [BinaryMessage.Fits, BinaryMessage.payloadLen]

/-- The encoded form of a diff is its payload, when it fits. -/
theorem encodePayload_of_fits {d : IncrementalStreamDataMessage}
    (h : (BinaryMessage.incrementalStreamData d).Fits ∧
      (BinaryMessage.incrementalStreamData d).payloadLen ≤ maxFrameSize) :
    d.encodePayload = .ok (BinaryMessage.incrementalStreamData d).payload := by
  obtain ⟨buf, hv⟩ := BinaryMessage.encodePayloadInto_of_fits h.1 h.2 []
  obtain ⟨hbuf, -⟩ := BinaryMessage.encodePayloadInto_ok hv
  rw [List.nil_append] at hbuf
  have hinto : encodeIncrementalInto d [] = (.ok (), buf) := hv
  unfold IncrementalStreamDataMessage.encodePayload
  rw [hinto]
  have hmax : ¬ buf.length > maxFrameSize := by
    rw [hbuf, BinaryMessage.payload_length]
    exact Nat.not_lt.mpr h.2
  rw [← hbuf]
  exact if_neg hmax

theorem encodePayload_length_le {d : IncrementalStreamDataMessage} {b : Bytes}
    (h : d.encodePayload = .ok b) : b.length ≤ maxFrameSize := by
  unfold IncrementalStreamDataMessage.encodePayload at h
  split at h
  · cases h
  · split at h
    · cases h
    · cases h
      omega

/-- A diff encodes when it fits, and so does what the compressor makes of it. -/
theorem wrapDiff_encodes_iff (S : Serde) (enc : K.Encoder) (d : IncrementalStreamDataMessage)
    (c : ConnectionId) (seq : UInt32) (out : Bytes) :
    ((dp.wrapDiff K enc d c seq).1.encodeInto S out).1 = .ok () ↔
      dp.CompressedFits K enc (BinaryMessage.incrementalStreamData d).payload ∧
      (BinaryMessage.incrementalStreamData d).Fits ∧
      (BinaryMessage.incrementalStreamData d).payloadLen ≤ maxFrameSize := by
  by_cases hfits : (BinaryMessage.incrementalStreamData d).Fits ∧
      (BinaryMessage.incrementalStreamData d).payloadLen ≤ maxFrameSize
  · have hplain : ((Frame.binary (.incrementalStreamData d)).encodeInto S out).1 = .ok () :=
      (encodeInto_binary_ok_iff S _ out).mpr hfits
    unfold wrapDiff CompressedFits
    rw [encodePayload_of_fits hfits, and_iff_left hfits]
    cases hcomp : dp.compression.isSome with
    | false =>
      -- nothing is compressed
      refine iff_of_true hplain ?_
      intro z hz
      unfold compress at hz
      rw [Option.isSome_eq_false_iff, Option.isNone_iff_eq_none] at hcomp
      simp [hcomp] at hz
    | true =>
      simp only [if_true]
      rcases dp.compress K enc (BinaryMessage.incrementalStreamData d).payload with ⟨_ | z, enc'⟩
      · exact iff_of_true hplain (by simp)
      · rw [encodeInto_binary_ok_iff]
        simp [BinaryMessage.Fits, BinaryMessage.payloadLen]
  · have herror : ∀ b, d.encodePayload ≠ .ok b := by
      intro b hb
      obtain ⟨rfl, hf⟩ := encodePayload_ok hb
      refine hfits ⟨hf, ?_⟩
      rw [← BinaryMessage.payload_length]
      exact encodePayload_length_le hb
    have hframe : (dp.wrapDiff K enc d c seq).1 = .binary (.incrementalStreamData d) := by
      unfold wrapDiff
      split
      · split
        · rename_i b hb
          exact absurd hb (herror b)
        · rfl
      · rfl
    rw [hframe, encodeInto_binary_ok_iff]
    exact iff_of_false hfits fun h => hfits h.2

theorem diffOf_eq_some {s : Sender K} {c : ConnectionId} {seq : UInt32} {data : Bytes}
    {d : IncrementalStreamDataMessage} (h : dp.diffOf K s c seq data = some d) :
    ∃ cache ∈ s.cache, cache.computeIncremental c seq data = some d := by
  unfold diffOf at h
  split at h
  · obtain ⟨cache, hcache, hd⟩ := Option.bind_eq_some_iff.mp h
    exact ⟨cache, hcache, hd⟩
  · cases h

/-- The frame of a payload encodes exactly when the payload is within the bounds. -/
theorem buildFrame_encodes_iff (S : Serde) (K : Codecs) (dp : DataPlane) (s : Sender K)
    (c : ConnectionId) (seq : UInt32) (data out : Bytes)
    (hchunk : ∀ cache ∈ s.cache, 1 ≤ cache.params.chunkSize) :
    ((dp.buildFrame K s c seq data).1.encodeInto S out).1 = .ok () ↔ dp.Encodable K s c seq data := by
  rw [buildFrame_frame]
  cases hdiff : dp.diffOf K s c seq data with
  | none =>
    simp only
    rw [plainOrCompressed_encodes_iff]
    constructor
    · intro h
      refine ⟨fun _ => h, ?_⟩
      intro d hd
      rw [hdiff] at hd
      cases hd
    · intro h
      exact h.whole hdiff
  | some d =>
    simp only
    rw [wrapDiff_encodes_iff]
    obtain ⟨cache, hcache, hd⟩ := diffOf_eq_some hdiff
    have hpos := hchunk cache hcache
    obtain ⟨base, old, hbase, -⟩ := computeIncremental_spec hpos hd
    have hfits := diff_fits_iff c seq base hpos old data _
      (congrArg BinaryMessage.incrementalStreamData (computeIncremental_chunks hpos hd hbase))
    rw [hfits]
    constructor
    · rintro ⟨hz, hlen, hbounds⟩
      refine ⟨fun hnone => absurd (hnone.symm.trans hdiff) (by simp), ?_⟩
      intro d' hd'
      rw [hdiff] at hd'
      cases hd'
      refine ⟨hz, hlen, ?_⟩
      intro cache' hcache' base' old' hbase'
      cases hcache.symm.trans hcache'
      cases hbase.symm.trans hbase'
      exact hbounds
    · intro h
      obtain ⟨hz, hlen, hbounds⟩ := h.diff d hdiff
      exact ⟨hz, hlen, hbounds cache hcache base old hbase⟩

/-- `PROXY_READ_BUF_MAX`. -/
def proxyReadBufMax : Nat := 256 * 1024

/-- A chunk of a read loop: with blocks of five bytes or more, and a compressor that adds at most a
    megabyte to its input, the frame of every chunk encodes. -/
theorem read_payload_encodes (S : Serde) {s : Sender K} {c : ConnectionId} {seq : UInt32}
    {data : Bytes} (out : Bytes) (hread : data.length ≤ proxyReadBufMax)
    (hchunk : ∀ cache ∈ s.cache, 5 ≤ cache.params.chunkSize)
    (hcompress : ∀ body z, (dp.compress K s.encoder body).1 = some z →
      z.length ≤ body.length + 1024 * 1024) :
    ((dp.buildFrame K s c seq data).1.encodeInto S out).1 = .ok () := by
  have hmax : maxFrameSize = 16777216 := rfl
  have hbuf : proxyReadBufMax = 262144 := rfl
  -- a short body fits, and so does what the compressor makes of it
  have hbody : ∀ body : Bytes, body.length < 8388608 → dp.CompressedFits K s.encoder body := by
    intro body hbody z hz
    have := hcompress body z hz
    omega
  rw [buildFrame_encodes_iff S K dp s c seq data out fun cache hcache => by
    have := hchunk cache hcache
    omega]
  constructor
  · intro _
    exact ⟨hbody data (by omega), fun _ => by omega⟩
  · intro d hd
    obtain ⟨cache, hcache, hd⟩ := diffOf_eq_some hd
    have hsize := hchunk cache hcache
    obtain ⟨base, old, hbase, -⟩ := computeIncremental_spec (by omega) hd
    have hcount : (changedBlocks cache.params.chunkSize old data).length < 2 ^ 16 := by
      refine Nat.lt_of_le_of_lt (changedBlocks_length_le _ _ _) ?_
      rw [Nat.div_lt_iff_lt_mul (by omega)]
      omega
    have hlen := changedLen_le cache.params.chunkSize old data
    refine ⟨hbody _ ?_, by omega, ?_⟩
    · rw [computeIncremental_chunks (by omega) hd hbase, BinaryMessage.payload_length]
      simp only [BinaryMessage.payloadLen, blockChunks_sum]
      rw [← changedLen]
      omega
    · intro cache' hcache' base' old' hbase'
      cases hcache.symm.trans hcache'
      cases hbase.symm.trans hbase'
      exact ⟨hcount, by omega⟩

/-- **Which frames encode.** Whatever the payload, the cached base, the tuning and the compressor: the
    frame that is built encodes exactly when the payload is within the bounds of what is sent of it. So
    it is for every chunk of the read loops, with blocks of five bytes or more and a compressor that
    adds at most a megabyte to its input. -/
theorem built_frames_encode (S : Serde) (K : Codecs) (dp : DataPlane) (s : Sender K) (c : ConnectionId)
    (seq : UInt32) (data out : Bytes) (hchunk : ∀ cache ∈ s.cache, 1 ≤ cache.params.chunkSize) :
    (((dp.buildFrame K s c seq data).1.encodeInto S out).1 = .ok () ↔ dp.Encodable K s c seq data) ∧
    (data.length ≤ proxyReadBufMax → (∀ cache ∈ s.cache, 5 ≤ cache.params.chunkSize) →
      (∀ body z, (dp.compress K s.encoder body).1 = some z → z.length ≤ body.length + 1024 * 1024) →
      ((dp.buildFrame K s c seq data).1.encodeInto S out).1 = .ok ()) := by
  refine ⟨buildFrame_encodes_iff S K dp s c seq data out hchunk, ?_⟩
  intro hread hblocks hcompress
  exact read_payload_encodes S out hread hblocks hcompress

/-- A relay with a base and blocks of eight bytes. -/
def smallSender : Sender storeCodecs where
  encoder := storeCodecs.newEncoder
  cache := some ⟨fun _ => some (1, [1, 2, 3]), ⟨8, 1, fun _ => 0⟩⟩
  stats := none

/-- Its next payload encodes. -/
theorem built_frames_encode_small :
    (((pictureRelay.buildFrame storeCodecs smallSender ⟨1⟩ 2 [1, 2, 4]).1.encodeInto noSerde []).1 =
      .ok () ↔ pictureRelay.Encodable storeCodecs smallSender ⟨1⟩ 2 [1, 2, 4]) ∧
    ((pictureRelay.buildFrame storeCodecs smallSender ⟨1⟩ 2 [1, 2, 4]).1.encodeInto noSerde []).1 =
      .ok () := by
  have hchunk : ∀ cache ∈ smallSender.cache, cache.params.chunkSize = 8 := by
    intro cache hcache
    cases hcache
    rfl
  obtain ⟨hiff, hread⟩ := built_frames_encode noSerde storeCodecs pictureRelay smallSender ⟨1⟩ 2
    [1, 2, 4] [] fun cache hcache => by rw [hchunk cache hcache]; decide
  refine ⟨hiff, hread (by decide) (fun cache hcache => by rw [hchunk cache hcache]; decide) ?_⟩
  intro body z hz
  cases hz

end DataPlane

/-! ## What the pipeline hands over -/

/-- A payload of the pipeline: a chunk of a read loop, or a unit of the re-encoder that is fed such
    chunks. -/
inductive Handed : Bytes → Prop
  | chunk {data : Bytes} (h : data.length ≤ DataPlane.proxyReadBufMax) : Handed data
  | unit {K : Recode.ImageCodecs} {spec : Recode.RecodeSpec} {chunks units : List Bytes}
      {m : Recode.DownstreamReencoder} {data : Bytes}
      (hchunks : ∀ x ∈ chunks, x.length ≤ DataPlane.proxyReadBufMax)
      (hrun : (Recode.DownstreamReencoder.new spec).pushAll K chunks [] = some (m, units))
      (hmem : data ∈ units) : Handed data

/-! ## Payloads that do not encode -/

/-- A byte of a constant payload. -/
theorem blockAt_replicate {n i : Nat} (x : UInt8) (h : i < n) :
    blockAt 1 (List.replicate n x) (i * 1) = [x] := by
  unfold blockAt
  rw [Nat.mul_one, List.length_replicate, if_pos h, List.drop_replicate, List.take_replicate]
  have hone : min (min (i + 1) n - i) (n - i) = 1 := by omega
  rw [hone]
  rfl

/-- Every byte is a changed block of its own. -/
theorem changedBlocks_replicate {a b : Nat} (h : b ≤ a) :
    changedBlocks 1 (List.replicate a 0) (List.replicate b 1) = List.range b := by
  unfold changedBlocks
  rw [List.length_replicate, Nat.add_sub_cancel, Nat.div_one, List.filter_eq_self]
  intro i hi
  rw [List.mem_range] at hi
  rw [blockAt_replicate 1 hi, blockAt_replicate 0 (by omega)]
  decide

/-- The relay's state after a payload of 131072 zeros, with blocks of one byte. -/
def byteSender : DataPlane.Sender storeCodecs where
  encoder := storeCodecs.newEncoder
  cache := some ⟨fun _ => some (1, List.replicate 131072 0), ⟨1, 1, fun n => n / 10⟩⟩
  stats := none

theorem byteSender_chunk : ∀ cache ∈ byteSender.cache, 1 ≤ cache.params.chunkSize := by
  intro cache hcache
  cases hcache
  decide

/-- A payload of 65536 ones is sent as a diff. -/
theorem byteSender_diff {new : Bytes} (hnew : new = List.replicate 65536 1) :
    ∃ d, pictureRelay.diffOf storeCodecs byteSender ⟨1⟩ 2 new = some d := by
  obtain ⟨old, hold⟩ : ∃ old : Bytes, old = List.replicate 131072 0 := ⟨_, rfl⟩
  have hlen : new.length = 65536 := by rw [hnew, List.length_replicate]
  have holdlen : old.length = 131072 := by rw [hold, List.length_replicate]
  have hblocks : changedBlocks 1 old new = List.range 65536 := by
    rw [hold, hnew]
    exact changedBlocks_replicate (by omega)
  have hsum := changedLen_le 1 old new
  rw [changedLen, ← chunksLen_blockChunks] at hsum
  have hne : (changedBlocks 1 old new).map (blockChunk 1 new) ≠ [] := by
    rw [hblocks, ne_eq, List.map_eq_nil_iff, List.range_eq_nil]
    omega
  have hd : (⟨fun _ => some (1, old), ⟨1, 1, fun n => n / 10⟩⟩ : ConnectionDataCache).computeIncremental
      ⟨1⟩ 2 new = some ⟨⟨1⟩, 2, 1, new.length, (changedBlocks 1 old new).map (blockChunk 1 new)⟩ := by
    unfold ConnectionDataCache.computeIncremental
    simp only
    rw [if_neg (by omega), computeDiffChunks_eq (by decide)]
    simp only
    rw [if_neg hne, if_neg (by omega)]
  rw [hold] at hd
  exact ⟨_, hd⟩

/-- They are too many. -/
theorem byteSender_refused (S : Serde) {new : Bytes} (out : Bytes) (hnew : new = List.replicate 65536 1) :
    ((pictureRelay.buildFrame storeCodecs byteSender ⟨1⟩ 2 new).1.encodeInto S out).1 ≠ .ok () := by
  intro hok
  rw [DataPlane.buildFrame_encodes_iff _ _ _ _ _ _ _ _ byteSender_chunk] at hok
  obtain ⟨d, hd⟩ := byteSender_diff hnew
  obtain ⟨-, -, hbounds⟩ := hok.diff d hd
  have hcount := (hbounds _ rfl _ _ rfl).1
  rw [hnew, changedBlocks_replicate (by omega), List.length_range] at hcount
  omega

/-- A request of 16 MiB that is no image, in chunks of a read loop. -/
def longHead : Bytes := [127, 0, 0, 0, 0, 0, 64, 0]

theorem longHead_total : Recode.requestTotal longHead false = some 16777216 := rfl

/-- It becomes one raw unit, above the limit of a frame. -/
theorem long_unit_handed (K : Recode.ImageCodecs) (spec : Recode.RecodeSpec) :
    ∃ data, Handed data ∧ data.length = 16777217 := by
  obtain ⟨whole, hwhole⟩ : ∃ b : Bytes, b = List.replicate 262144 0 := ⟨_, rfl⟩
  obtain ⟨last, hlast⟩ : ∃ b : Bytes, b = List.replicate 262136 0 := ⟨_, rfl⟩
  have hwholelen : whole.length = 262144 := by rw [hwhole, List.length_replicate]
  have hlastlen : last.length = 262136 := by rw [hlast, List.length_replicate]
  obtain ⟨chunks, hchunks⟩ : ∃ l : List Bytes, l = List.replicate 63 whole := ⟨_, rfl⟩
  have hflat : chunks.flatten.length = 16515072 := by
    rw [hchunks, List.length_flatten, List.map_replicate, List.sum_replicate_nat, hwholelen]
  have hlen : (longHead ++ chunks.flatten ++ last).length = 16777216 := by
    rw [List.length_append, List.length_append, hflat, hlastlen]
    rfl
  have hship : Recode.shipping K spec (longHead ++ chunks.flatten ++ last) false = some none := by
    have hop : (longHead ++ chunks.flatten ++ last).getD 0 0 = 127 := rfl
    unfold Recode.shipping Recode.classifyPutImage
    rw [hop, if_pos (.inl (by decide))]
    rfl
  have hrun := Recode.DownstreamReencoder.pushAll_raw (K := K) Recode.plainSetup_head
    (by simp [Recode.plainSetup]) Recode.plainSetup_len (List.ne_nil_of_length_pos (by omega))
    (longHead_total.trans (congrArg some hlen.symm))
    (by rw [hlen]; decide) hship
  refine ⟨_, .unit ?_ hrun (List.mem_cons_of_mem _ List.mem_cons_self), ?_⟩
  · have hmax : DataPlane.proxyReadBufMax = 262144 := rfl
    intro x hx
    rcases List.mem_cons.mp hx with rfl | hx
    · decide
    · rcases List.mem_cons.mp hx with rfl | hx
      · decide
      · rcases List.mem_append.mp hx with hx | hx
        · rw [hchunks] at hx
          rw [List.eq_of_mem_replicate hx]
          omega
        · rw [List.mem_singleton.mp hx]
          omega
  · rw [List.length_cons, hlen]

/-- A plane without diffs and without compression refuses what is above the limit. -/
theorem plain_refused (S : Serde) (s : DataPlane.Sender storeCodecs) (c : ConnectionId) (seq : UInt32)
    {data : Bytes} (out : Bytes) (hcache : s.cache = none) (hlen : maxFrameSize < data.length) :
    (((⟨.relay, ⟨[]⟩, none, 256⟩ : DataPlane).buildFrame storeCodecs s c seq data).1.encodeInto S
      out).1 ≠ .ok () := by
  intro hok
  rw [DataPlane.buildFrame_encodes_iff _ _ _ _ _ _ _ _ (by simp [hcache])] at hok
  have := (hok.whole rfl).2 rfl
  omega

/-- Two payloads of the pipeline that are refused: a chunk with 65536 changed blocks of one byte, and a
    unit that holds a request of 16 MiB. -/
theorem handed_payload_refused : (¬ ∀ data, Handed data → ∀ (S : Serde) (K : Codecs) (dp : DataPlane)
    (s : DataPlane.Sender K) (c : ConnectionId) (seq : UInt32) (out : Bytes), K.RoundTrips →
    (∀ cache ∈ s.cache, 1 ≤ cache.params.chunkSize) →
    ((dp.buildFrame K s c seq data).1.encodeInto S out).1 = .ok ()) ∧
    ∃ data, Handed data ∧ data.length = 16777217 ∧ (((⟨.relay, ⟨[]⟩, none, 256⟩ : DataPlane).buildFrame
      storeCodecs ⟨(), none, none⟩ ⟨1⟩ 2 data).1.encodeInto noSerde []).1 ≠ .ok () := by
  constructor
  · intro h
    obtain ⟨new, hnew⟩ : ∃ new : Bytes, new = List.replicate 65536 1 := ⟨_, rfl⟩
    have hread : new.length ≤ DataPlane.proxyReadBufMax := by
      rw [hnew, List.length_replicate]
      decide
    exact byteSender_refused noSerde [] hnew (h new (.chunk hread) noSerde storeCodecs pictureRelay
      byteSender ⟨1⟩ 2 [] storeCodecs_roundTrips byteSender_chunk)
  · obtain ⟨data, hdata, hlen⟩ := long_unit_handed ⟨fun _ => [], fun _ => none, fun _ _ _ _ => none,
      fun _ => none⟩ ⟨.png, 80, 16384⟩
    have hmax : maxFrameSize = 16777216 := rfl
    exact ⟨data, hdata, hlen, plain_refused noSerde _ ⟨1⟩ 2 [] rfl (by omega)⟩

end RemoteX11.Data
