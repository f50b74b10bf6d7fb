/-
  What a diff saves, and what the two sides record of it (`incremental.rs`, `dataplane.rs`).

  A diff leaves out the blocks that the payload shares with its base (`sharedLen`) and adds a header
  for each block it carries. `compute_incremental` weighs neither: it compares the bytes of the
  chunks with the length of the base, rounded down. `diff_worth_sending_iff` says when a diff it
  returns is smaller than the payload it stands for.

  `savings_agree_iff` says when the sender and the receiver of a frame record the same savings for it:
  they measure a compressed diff differently, the sender by the length of its encoding and the
  receiver by the bytes of its chunks.

  The ratio is an exact rational; the source computes the product in floating point.
-/
import RemoteX11.Data.Encodable
import Mathlib.Data.Rat.Floor

namespace RemoteX11.Data

open RemoteX11.Lib RemoteX11.Protocol

/-! ## The bytes a diff leaves out -/

/-- The bytes of the blocks in which the payload equals the base. -/
def sharedLen (chunkSize : Nat) (old new : Bytes) : Nat :=
  (((List.range ((new.length + chunkSize - 1) / chunkSize)).filter fun i =>
    blockAt chunkSize new (i * chunkSize) = blockAt chunkSize old (i * chunkSize)).map fun i =>
      (blockAt chunkSize new (i * chunkSize)).length).sum

theorem blockAt_length (chunkSize : Nat) (data : Bytes) (offset : Nat) :
    (blockAt chunkSize data offset).length = min (offset + chunkSize) data.length - offset := by
  unfold blockAt
  split
  · rw [List.length_take, List.length_drop]
    omega
  · rw [List.length_nil]
    omega

/-- The first blocks of a payload, one after the other. -/
theorem sum_blocks (chunkSize : Nat) (new : Bytes) (n : Nat) :
    ((List.range n).map fun i => (blockAt chunkSize new (i * chunkSize)).length).sum =
      min (n * chunkSize) new.length := by
  induction n with
  | zero => simp
  | succ n ih =>
    have hsucc : (n + 1) * chunkSize = n * chunkSize + chunkSize := Nat.succ_mul n chunkSize
    rw [List.range_succ, List.map_append, List.sum_append, ih, List.map_singleton, List.sum_singleton,
      blockAt_length, hsucc]
    omega

/-- What a filter takes and what it leaves. -/
theorem sum_filter_add (l : List Nat) (p : Nat → Prop) [DecidablePred p] (f : Nat → Nat) :
    ((l.filter fun i => ¬ p i).map f).sum + ((l.filter fun i => p i).map f).sum = (l.map f).sum := by
  induction l with
  | nil => rfl
  | cons i l ih =>
    by_cases hi : p i
    · simp only [List.filter_cons, hi, not_true_eq_false, decide_false, decide_true, if_true,
        List.map_cons, List.sum_cons, ← ih, Bool.false_eq_true, if_false]
      omega
    · simp only [List.filter_cons, hi, not_false_eq_true, decide_false, decide_true, if_true,
        List.map_cons, List.sum_cons, ← ih, Bool.false_eq_true, if_false]
      omega

/-- Every byte of the payload is in a block that changed or in one that did not. -/
theorem changedLen_add_sharedLen {chunkSize : Nat} (hpos : 0 < chunkSize) (old new : Bytes) :
    changedLen chunkSize old new + sharedLen chunkSize old new = new.length := by
  have hblocks : new.length ≤ (new.length + chunkSize - 1) / chunkSize * chunkSize := by
    have hdiv := Nat.div_add_mod (new.length + chunkSize - 1) chunkSize
    have hmod := Nat.mod_lt (new.length + chunkSize - 1) hpos
    rw [Nat.mul_comm] at hdiv
    omega
  have hsum := sum_filter_add (List.range ((new.length + chunkSize - 1) / chunkSize))
    (fun i => blockAt chunkSize new (i * chunkSize) = blockAt chunkSize old (i * chunkSize))
    fun i => (blockAt chunkSize new (i * chunkSize)).length
  rw [sum_blocks, Nat.min_eq_right hblocks] at hsum
  exact hsum

/-- A frame of chunks is a header of 18 bytes, one of eight for each chunk, and their bytes. -/
theorem payloadLen_incremental (m : IncrementalStreamDataMessage) :
    (BinaryMessage.incrementalStreamData m).payloadLen =
      referenceOverhead + 8 * m.chunks.length + chunksLen m.chunks := by
  simp only [BinaryMessage.payloadLen, referenceOverhead, chunksLen]
  induction m.chunks with
  | nil => rfl
  | cons x xs ih =>
    simp only [List.map_cons, List.sum_cons, List.length_cons] at ih ⊢
    omega

/-! ## Worth sending -/

/-- The parameters with an exact ratio: `(len as f64 * min_savings_ratio) as usize`. -/
def DiffParams.ofRatio (chunkSize minBlockSize : Nat) (minSavingsRatio : ℚ) : DiffParams where
  chunkSize := chunkSize
  minBlockSize := minBlockSize
  minSaved := fun len => ⌊minSavingsRatio * len⌋₊

/-- The diff is smaller on the wire than the payload it stands for, and its chunks leave out at least
    the ratio of the payload. -/
structure WorthSending (minSavingsRatio : ℚ) (new : Bytes) (diff : IncrementalStreamDataMessage) :
    Prop where
  smaller : (Frame.binary (.incrementalStreamData diff)).encodedSize <
    (Frame.binary (.streamData ⟨diff.connectionId, diff.sequenceId, new⟩)).encodedSize
  saves : diff.chunks ≠ [] →
    minSavingsRatio * new.length ≤ (new.length : ℚ) - (chunksLen diff.chunks : ℚ)

/-- The payload shares enough with the base: more than the ten bytes by which the header of a diff is
    the longer one and eight for each block that changed, and at least the ratio of itself. -/
def SharesEnough (chunkSize : Nat) (minSavingsRatio : ℚ) (old new : Bytes) : Prop :=
  10 + 8 * (changedBlocks chunkSize old new).length < sharedLen chunkSize old new ∧
    (new ≠ old → minSavingsRatio * new.length ≤ sharedLen chunkSize old new)

/-- A diff without chunks is of an unchanged payload. -/
theorem chunks_eq_nil_iff {cache : ConnectionDataCache} {c : ConnectionId} {seq : UInt32}
    {new : Bytes} {diff : IncrementalStreamDataMessage} (hpos : 0 < cache.params.chunkSize)
    (h : cache.computeIncremental c seq new = some diff) {base : UInt32} {old : Bytes}
    (hbase : cache.lastData c = some (base, old)) : diff.chunks = [] ↔ new = old := by
  constructor
  · intro hnil
    obtain ⟨_, _, hbase', -, -, -, -, -, hsame, -⟩ := computeIncremental_spec hpos h
    rw [hbase] at hbase'
    obtain ⟨-, rfl⟩ := Prod.mk.inj (Option.some.inj hbase')
    exact (hsame hnil).symm
  · rintro rfl
    rw [computeIncremental_chunks hpos h hbase, changedBlocks_self, List.map_nil]

/-- **When a diff is worth sending.** A diff that `compute_incremental` returns is smaller than the
    plain frame and saves the ratio of the payload exactly when the payload shares enough with the
    base. The ratio is any: that of the cache's own parameters decides which diffs are returned, not
    what they save. -/
theorem diff_worth_sending_iff {cache : ConnectionDataCache} {chunkSize : Nat} (minSavingsRatio : ℚ)
    (hpos : 1 ≤ chunkSize) (hchunk : cache.params.chunkSize = chunkSize) {c : ConnectionId}
    {seq base : UInt32} {old new : Bytes} (hbase : cache.lastData c = some (base, old))
    {diff : IncrementalStreamDataMessage} (h : cache.computeIncremental c seq new = some diff) :
    WorthSending minSavingsRatio new diff ↔ SharesEnough chunkSize minSavingsRatio old new := by
  have hpos' : 0 < cache.params.chunkSize := by omega
  have hnil := chunks_eq_nil_iff hpos' h hbase
  have hdiff := computeIncremental_chunks hpos' h hbase
  rw [hchunk] at hdiff
  have hsum := changedLen_add_sharedLen hpos old new
  have hcarried : chunksLen diff.chunks = changedLen chunkSize old new := by
    rw [hdiff]
    exact chunksLen_blockChunks chunkSize new _
  have hcount : diff.chunks.length = (changedBlocks chunkSize old new).length := by
    rw [hdiff]
    exact List.length_map _
  have hsize : (Frame.binary (.incrementalStreamData diff)).encodedSize <
      (Frame.binary (.streamData ⟨diff.connectionId, diff.sequenceId, new⟩)).encodedSize ↔
        10 + 8 * (changedBlocks chunkSize old new).length < sharedLen chunkSize old new := by
    simp only [Frame.encodedSize, Frame.payloadLenHint, payloadLen_incremental, hcarried, hcount,
      referenceOverhead]
    simp only [BinaryMessage.payloadLen]
    omega
  have hsaved : (new.length : ℚ) - (chunksLen diff.chunks : ℚ) = sharedLen chunkSize old new := by
    rw [hcarried, ← hsum, Nat.cast_add, add_sub_cancel_left]
  constructor
  · rintro ⟨hsmaller, hsaves⟩
    refine ⟨hsize.mp hsmaller, fun hne => ?_⟩
    rw [← hsaved]
    exact hsaves fun hchunks => hne (hnil.mp hchunks)
  · rintro ⟨hsmaller, hsaves⟩
    refine ⟨hsize.mpr hsmaller, fun hne => ?_⟩
    rw [hsaved]
    exact hsaves fun hsame => hne (hnil.mpr hsame)

/-- The default parameters, and a payload of one block that has nothing in common with a longer base:
    the bytes that the base has more count as saved. -/
theorem shrunk_payload_not_worth :
    ∃ diff, ((ConnectionDataCache.withParams (.ofRatio 4096 1024 (1 / 10))).updateCacheOwned ⟨7⟩ 1
        (List.replicate 2048 0)).computeIncremental ⟨7⟩ 2 (List.replicate 1024 1) = some diff ∧
      (Frame.binary (.incrementalStreamData diff)).encodedSize = 1061 ∧
      (Frame.binary (.streamData ⟨⟨7⟩, 2, List.replicate 1024 1⟩)).encodedSize = 1043 ∧
      chunksLen diff.chunks = 1024 ∧ ¬ WorthSending (1 / 10) (List.replicate 1024 1) diff := by
  have hsome := Option.eq_some_of_isSome
    (show (((ConnectionDataCache.withParams (.ofRatio 4096 1024 (1 / 10))).updateCacheOwned ⟨7⟩ 1
      (List.replicate 2048 0)).computeIncremental ⟨7⟩ 2 (List.replicate 1024 1)).isSome = true by
        decide +kernel)
  refine ⟨_, hsome, by decide +kernel, by decide +kernel, by decide +kernel, fun h => ?_⟩
  exact absurd h.smaller (by decide +kernel)

/-- One block of ten that changed. -/
theorem diff_worth_sending_iff_block :
    ∃ diff, ((ConnectionDataCache.withParams (.ofRatio 4 4 (1 / 10))).updateCacheOwned ⟨7⟩ 1
        (List.replicate 40 0)).computeIncremental ⟨7⟩ 2 (List.replicate 36 0 ++ [1, 1, 1, 1]) =
          some diff ∧
      WorthSending (1 / 10) (List.replicate 36 0 ++ [1, 1, 1, 1]) diff := by
  have hsome := Option.eq_some_of_isSome
    (show (((ConnectionDataCache.withParams (.ofRatio 4 4 (1 / 10))).updateCacheOwned ⟨7⟩ 1
      (List.replicate 40 0)).computeIncremental ⟨7⟩ 2 (List.replicate 36 0 ++ [1, 1, 1, 1])).isSome =
        true by decide +kernel)
  have hshared : sharedLen 4 (List.replicate 40 0) (List.replicate 36 0 ++ [1, 1, 1, 1]) = 36 := by
    decide +kernel
  refine ⟨_, hsome, (diff_worth_sending_iff (1 / 10) (by decide) (show DiffParams.chunkSize _ = 4 from rfl)
    (ConnectionDataCache.updateCacheOwned_self _ _ _ _) hsome).mpr ⟨by decide +kernel, fun _ => ?_⟩⟩
  rw [hshared]
  norm_num

/-- What `compute_incremental` does weigh. -/
theorem computeIncremental_saves {cache : ConnectionDataCache} {c : ConnectionId} {seq : UInt32}
    {new : Bytes} {diff : IncrementalStreamDataMessage}
    (h : cache.computeIncremental c seq new = some diff) {base : UInt32} {old : Bytes}
    (hbase : cache.lastData c = some (base, old)) (hchunks : diff.chunks ≠ []) :
    cache.params.minBlockSize ≤ new.length ∧
      cache.params.minSaved old.length ≤ old.length - chunksLen diff.chunks := by
  unfold ConnectionDataCache.computeIncremental at h
  simp only [hbase] at h
  split at h
  · split at h
    · cases h
      exact absurd rfl hchunks
    · cases h
  · rename_i hfloor
    split at h
    · rename_i hnil
      split at h
      · cases h
        exact absurd hnil hchunks
      · cases h
    · split at h
      · cases h
      · rename_i hsaved
        cases h
        exact ⟨Nat.not_lt.mp hfloor, Nat.not_lt.mp hsaved⟩

/-- With the default parameters a diff of a payload that changed and kept its length is smaller than
    the payload: a tenth of it outweighs the headers of blocks of 4096 bytes. -/
theorem default_diff_smaller {cache : ConnectionDataCache}
    (hparams : cache.params = .ofRatio 4096 1024 (1 / 10)) {c : ConnectionId} {seq base : UInt32}
    {old new : Bytes} (hbase : cache.lastData c = some (base, old)) (hlen : old.length = new.length)
    (hne : new ≠ old) {diff : IncrementalStreamDataMessage}
    (h : cache.computeIncremental c seq new = some diff) :
    10 + 8 * (changedBlocks 4096 old new).length < sharedLen 4096 old new := by
  have hpos : 0 < cache.params.chunkSize := by rw [hparams]; decide
  have hchunks : diff.chunks ≠ [] := fun hnil => hne ((chunks_eq_nil_iff hpos h hbase).mp hnil)
  obtain ⟨hfloor, hsaved⟩ := computeIncremental_saves h hbase hchunks
  rw [computeIncremental_chunks hpos h hbase, chunksLen_blockChunks, ← changedLen] at hsaved
  rw [hparams] at hfloor hsaved
  have hfloor : 1024 ≤ new.length := hfloor
  have hsaved : ⌊(1 / 10 : ℚ) * (old.length : ℚ)⌋₊ ≤ old.length - changedLen 4096 old new := hsaved
  have htenth : ⌊(1 / 10 : ℚ) * (old.length : ℚ)⌋₊ = old.length / 10 := by
    rw [one_div_mul_eq_div]
    exact Rat.natFloor_natCast_div_natCast old.length 10
  have hsum := changedLen_add_sharedLen (show 0 < 4096 by decide) old new
  have hcount := changedBlocks_length_le 4096 old new
  rw [htenth] at hsaved
  omega

/-! ## What the two sides record -/

/-- The savings recorded for one frame. -/
structure FrameSavings where
  compression : Nat
  incremental : Nat
  incrementalCompression : Nat
  deriving DecidableEq, Repr

/-- By how much the totals grew. -/
def ConnectionStats.gained (before after : ConnectionStats) : FrameSavings where
  compression := after.compression.saved - before.compression.saved
  incremental := after.incremental.saved - before.incremental.saved
  incrementalCompression := after.incrementalCompression.saved - before.incrementalCompression.saved

@[simp] theorem Savings.record_saved (s : Savings) (n : Nat) : (s.record n).saved = s.saved + n := by
  unfold Savings.record
  split
  · rfl
  · omega

/-- What `record_outbound` records, by shape. -/
def outboundSavings (originalLen : Nat) : BinaryMessage → FrameSavings
  | .streamData _ => ⟨0, 0, 0⟩
  | .compressedStreamData m => ⟨m.originalLen - m.data.length, 0, 0⟩
  | .incrementalStreamData m => ⟨0, originalLen - chunksLen m.chunks, 0⟩
  | .compressedIncrementalStreamData m =>
    ⟨0, originalLen - m.originalLen, m.originalLen - m.data.length⟩

theorem gained_recordOutbound (st : ConnectionStats) (m : BinaryMessage) (originalLen : Nat) :
    st.gained (recordOutbound st (.binary m) originalLen) = outboundSavings originalLen m := by
  cases m <;>
    simp [recordOutbound, outboundSavings, ConnectionStats.gained, ConnectionStats.addBytesSent,
      ConnectionStats.addCompressionSaved, ConnectionStats.addIncrementalSaved,
      ConnectionStats.addIncrementalCompressionSaved]

namespace DataPlane

variable {K : Codecs} {dp rdp : DataPlane}

/-- `apply_diff` records the payload without its chunks. -/
theorem applyDiff_stats {r r' : Receiver K} {msg : IncrementalStreamDataMessage} {c : ConnectionId}
    {d : Bytes} (h : applyDiff K r msg = (.payload c d, r')) :
    r'.stats = (r.stats.addIncrementalSaved (msg.totalLen - chunksLen msg.chunks)).addBytesReceived
      d.length := by
  unfold applyDiff at h
  cases happly : r.cache.applyIncremental msg with
  | none => simp [happly] at h
  | some applied =>
    simp only [happly, Prod.mk.injEq, InboundOutcome.payload.injEq] at h
    rw [← h.2, h.1.2]

theorem keep_stats (r : Receiver K) (c : ConnectionId) (seq : UInt32) (data : Bytes) :
    (dp.keep K r c seq data).stats = r.stats := by
  unfold keep
  split <;> rfl

/-- A compressed payload is recorded as on the other side. -/
theorem gained_compressed {r r' : Receiver K} {m : CompressedStreamDataMessage} {c : ConnectionId}
    {d : Bytes} (h : rdp.applyInbound K r (.binary (.compressedStreamData m)) = (.payload c d, r')) :
    r.stats.gained r'.stats = ⟨m.originalLen - m.data.length, 0, 0⟩ := by
  simp only [applyInbound] at h
  split at h
  · cases h
  · split at h
    · cases h
    · rw [Prod.mk.injEq] at h
      rw [← h.2, keep_stats]
      simp [ConnectionStats.gained, ConnectionStats.addCompressionSaved,
        ConnectionStats.addBytesReceived]

/-- A plain payload saves nothing. -/
theorem gained_plain {r r' : Receiver K} {m : StreamDataMessage} {c : ConnectionId} {d : Bytes}
    (h : rdp.applyInbound K r (.binary (.streamData m)) = (.payload c d, r')) :
    r.stats.gained r'.stats = ⟨0, 0, 0⟩ := by
  simp only [applyInbound, Prod.mk.injEq] at h
  rw [← h.2, keep_stats]
  simp [ConnectionStats.gained, ConnectionStats.addBytesReceived]

theorem gained_incremental {r r' : Receiver K} {m : IncrementalStreamDataMessage} {c : ConnectionId}
    {d : Bytes} (h : rdp.applyInbound K r (.binary (.incrementalStreamData m)) = (.payload c d, r')) :
    r.stats.gained r'.stats = ⟨0, m.totalLen - chunksLen m.chunks, 0⟩ := by
  simp only [applyInbound] at h
  split at h
  · rw [applyDiff_stats h]
    simp [ConnectionStats.gained, ConnectionStats.addIncrementalSaved,
      ConnectionStats.addBytesReceived]
  · cases h

/-- A compressed diff is measured once it is decoded. -/
theorem gained_compressedIncremental {r r' : Receiver K} {m : CompressedIncrementalStreamDataMessage}
    {c : ConnectionId} {d encoded : Bytes} {dec : K.Decoder} {diff : IncrementalStreamDataMessage}
    (hdec : rdp.decompressPayload K r.decoder m.data m.originalLen = (some encoded, dec))
    (hdiff : IncrementalStreamDataMessage.decodePayload encoded = .ok diff)
    (h : rdp.applyInbound K r (.binary (.compressedIncrementalStreamData m)) = (.payload c d, r')) :
    r.stats.gained r'.stats =
      ⟨0, diff.totalLen - chunksLen diff.chunks, m.originalLen - m.data.length⟩ := by
  simp only [applyInbound, hdec, hdiff] at h
  split at h
  · cases h
  · split at h
    · cases h
    · rw [applyDiff_stats h]
      simp [ConnectionStats.gained, ConnectionStats.addIncrementalCompressionSaved,
        ConnectionStats.addIncrementalSaved, ConnectionStats.addBytesReceived]

/-- The diff that `compute_incremental` finds ships compressed. -/
def CompressesDiff (K : Codecs) (dp : DataPlane) (enc : K.Encoder) (cache : ConnectionDataCache)
    (c : ConnectionId) (seq : UInt32) (data : Bytes) : Prop :=
  ∃ diff encoded z, cache.computeIncremental c seq data = some diff ∧
    diff.encodePayload = .ok encoded ∧ (dp.compress K enc encoded).1 = some z

/-- The sender's totals move by what `record_outbound` says of the frame. -/
theorem buildFrame_stats (s : Sender K) (c : ConnectionId) (seq : UInt32) (data : Bytes) :
    (dp.buildFrame K s c seq data).2.stats =
      s.stats.map fun st => recordOutbound st (dp.buildFrame K s c seq data).1 data.length := by
  unfold buildFrame
  split <;> rfl

theorem buildFrame_compressed_diff {s : Sender K} {cache : ConnectionDataCache} {c : ConnectionId}
    {seq : UInt32} {data encoded z : Bytes} {diff : IncrementalStreamDataMessage}
    (hmay : dp.mayDiffSend = true) (hcache : s.cache = some cache)
    (hdiff : cache.computeIncremental c seq data = some diff) (henc : diff.encodePayload = .ok encoded)
    (hz : (dp.compress K s.encoder encoded).1 = some z) :
    (dp.buildFrame K s c seq data).1 =
      .binary (.compressedIncrementalStreamData ⟨c, seq, encoded.length, z⟩) := by
  have hsome : dp.compression.isSome = true := by
    unfold compress at hz
    cases halgo : dp.compression with
    | none => simp [halgo] at hz
    | some algo => rfl
  rcases hc : dp.compress K s.encoder encoded with ⟨_ | z', enc'⟩
  · rw [hc] at hz
    cases hz
  · rw [hc] at hz
    cases hz
    simp only [buildFrame, hmay, hcache, hdiff, wrapDiff, hsome, if_true, henc, hc]

/-- Any other frame is the payload, compressed or not, or the diff as it was computed. -/
theorem buildFrame_other {s : Sender K} {c : ConnectionId} {seq : UInt32} {data : Bytes}
    (hno : ∀ cache, dp.mayDiffSend = true → s.cache = some cache →
      ¬ CompressesDiff K dp s.encoder cache c seq data) :
    (∃ m, (dp.buildFrame K s c seq data).1 = .binary (.streamData m)) ∨
      (∃ m, (dp.buildFrame K s c seq data).1 = .binary (.compressedStreamData m)) ∨
      ∃ cache diff, s.cache = some cache ∧ cache.computeIncremental c seq data = some diff ∧
        (dp.buildFrame K s c seq data).1 = .binary (.incrementalStreamData diff) := by
  have hwhole : ∀ enc : K.Encoder,
      (∃ m, (dp.plainOrCompressed K enc c seq data).1 = .binary (.streamData m)) ∨
        ∃ m, (dp.plainOrCompressed K enc c seq data).1 = .binary (.compressedStreamData m) := by
    intro enc
    unfold plainOrCompressed
    rcases dp.compress K enc data with ⟨_ | z, enc'⟩
    · exact Or.inl ⟨_, rfl⟩
    · exact Or.inr ⟨_, rfl⟩
  by_cases hmay : dp.mayDiffSend = true
  · cases hcache : s.cache with
    | none =>
      simp only [buildFrame, hmay, hcache]
      exact (hwhole s.encoder).imp_right Or.inl
    | some cache =>
      cases hdiff : cache.computeIncremental c seq data with
      | none =>
        simp only [buildFrame, hmay, hcache, hdiff]
        exact (hwhole s.encoder).imp_right Or.inl
      | some diff =>
        refine Or.inr (Or.inr ⟨cache, diff, rfl, hdiff, ?_⟩)
        simp only [buildFrame, hmay, hcache, hdiff, wrapDiff]
        split
        · cases henc : diff.encodePayload with
          | error e => rfl
          | ok encoded =>
            rcases hc : dp.compress K s.encoder encoded with ⟨_ | z, enc'⟩
            · simp only [hc]
            · exact absurd ⟨diff, encoded, z, hdiff, henc, by rw [hc]⟩ (hno cache hmay hcache)
        · rfl
  · have hmay : dp.mayDiffSend = false := by simpa using hmay
    simp only [buildFrame, hmay]
    exact (hwhole s.encoder).imp_right Or.inl

/-- The two measures of a compressed diff agree when it leaves out nothing. -/
theorem compressed_diff_measures_iff {cache : ConnectionDataCache} (hpos : 0 < cache.params.chunkSize)
    {c : ConnectionId} {seq base : UInt32} {old data encoded : Bytes}
    {diff : IncrementalStreamDataMessage} (hbase : cache.lastData c = some (base, old))
    (hdiff : cache.computeIncremental c seq data = some diff)
    (henc : diff.encodePayload = .ok encoded) :
    data.length - encoded.length = diff.totalLen - chunksLen diff.chunks ↔
      sharedLen cache.params.chunkSize old data = 0 := by
  have hsum := changedLen_add_sharedLen hpos old data
  have hchunks := computeIncremental_chunks hpos hdiff hbase
  have hcarried : chunksLen diff.chunks = changedLen cache.params.chunkSize old data := by
    rw [hchunks]
    exact chunksLen_blockChunks _ data _
  have htotal : diff.totalLen = data.length := by rw [hchunks]
  have hlen : encoded.length = referenceOverhead + 8 * diff.chunks.length + chunksLen diff.chunks := by
    rw [(encodePayload_ok henc).1, BinaryMessage.payload_length, payloadLen_incremental]
  unfold referenceOverhead at hlen
  omega

/-- Both sides measure any other frame alike. -/
theorem savings_agree_other {s : Sender K} {r r' : Receiver K}
    (hpos : ∀ cache, s.cache = some cache → 0 < cache.params.chunkSize) {c c' : ConnectionId}
    {seq : UInt32} {data d : Bytes}
    (hno : ∀ cache, dp.mayDiffSend = true → s.cache = some cache →
      ¬ CompressesDiff K dp s.encoder cache c seq data) (st : ConnectionStats)
    (hpay : rdp.applyInbound K r (dp.buildFrame K s c seq data).1 = (.payload c' d, r')) :
    st.gained (recordOutbound st (dp.buildFrame K s c seq data).1 data.length) =
      r.stats.gained r'.stats := by
  rcases buildFrame_other hno with ⟨m, hframe⟩ | ⟨m, hframe⟩ | ⟨cache, diff, hcache, hdiff, hframe⟩
  · rw [hframe] at hpay ⊢
    rw [gained_recordOutbound, gained_plain hpay]
    rfl
  · rw [hframe] at hpay ⊢
    rw [gained_recordOutbound, gained_compressed hpay]
    rfl
  · obtain ⟨_, _, _, _, _, _, htotal, _⟩ := computeIncremental_spec (hpos cache hcache) hdiff
    rw [hframe] at hpay ⊢
    rw [gained_recordOutbound, gained_incremental hpay, htotal]
    rfl

/-- **When both sides record the same.** The savings that the sender records for a frame are those its
    receiver records, in each of the four shapes, unless the frame is a compressed diff that leaves out
    anything. -/
theorem savings_agree_iff (hK : K.RoundTrips) (hcomp : rdp.compression = dp.compression)
    {s : Sender K} {r r' : Receiver K} (hl : K.Lockstep s.encoder r.decoder)
    (hpos : ∀ cache, s.cache = some cache → 0 < cache.params.chunkSize) {st : ConnectionStats}
    (hst : s.stats = some st) {c c' : ConnectionId} {seq : UInt32} {data d : Bytes}
    (hpay : rdp.applyInbound K r (dp.buildFrame K s c seq data).1 = (.payload c' d, r')) :
    (∃ st', (dp.buildFrame K s c seq data).2.stats = some st' ∧
        st.gained st' = r.stats.gained r'.stats) ↔
      ∀ cache base old, dp.mayDiffSend = true → s.cache = some cache →
        cache.lastData c = some (base, old) → CompressesDiff K dp s.encoder cache c seq data →
          sharedLen cache.params.chunkSize old data = 0 := by
  have hstats := dp.buildFrame_stats s c seq data
  rw [hst, Option.map_some] at hstats
  have hsender : (∃ st', (dp.buildFrame K s c seq data).2.stats = some st' ∧
      st.gained st' = r.stats.gained r'.stats) ↔
        st.gained (recordOutbound st (dp.buildFrame K s c seq data).1 data.length) =
          r.stats.gained r'.stats := by
    rw [hstats]
    simp
  rw [hsender]
  by_cases hships : ∃ cache, dp.mayDiffSend = true ∧ s.cache = some cache ∧
      CompressesDiff K dp s.encoder cache c seq data
  · obtain ⟨cache, hmay, hcache, hc⟩ := hships
    obtain ⟨diff, encoded, z, hdiff, henc, hz⟩ := id hc
    obtain ⟨base, old, hbase, -, -, -, -, hsized, -⟩ := computeIncremental_spec (hpos cache hcache) hdiff
    have hframe := buildFrame_compressed_diff hmay hcache hdiff henc hz
    rw [hframe] at hpay ⊢
    obtain ⟨-, dec, hdec, -⟩ := compress_some hK hcomp hl (encodePayload_ne_nil henc)
      (show dp.compress K s.encoder encoded = (some z, (dp.compress K s.encoder encoded).2) from
        Prod.ext hz rfl)
    have hdecode := decodePayload_encodePayload hsized henc
    rw [gained_recordOutbound, gained_compressedIncremental hdec hdecode hpay]
    simp only [outboundSavings, FrameSavings.mk.injEq, true_and, and_true]
    rw [compressed_diff_measures_iff (hpos cache hcache) hbase hdiff henc]
    constructor
    · intro h cache' base' old' _ hcache' hbase' _
      obtain rfl : cache = cache' := Option.some.inj (hcache.symm.trans hcache')
      rw [hbase] at hbase'
      cases hbase'
      exact h
    · intro h
      exact h cache base old hmay hcache hbase hc
  · have hno : ∀ cache, dp.mayDiffSend = true → s.cache = some cache →
        ¬ CompressesDiff K dp s.encoder cache c seq data :=
      fun cache hmay hcache hc => hships ⟨cache, hmay, hcache, hc⟩
    constructor
    · intro _ cache _ _ hmay hcache _ hc
      exact absurd hc (hno cache hmay hcache)
    · intro _
      exact savings_agree_other hpos hno st hpay

/-- A relay that compresses everything in one stream. -/
def streamRelay : DataPlane := ⟨.relay, ⟨[.incremental]⟩, some .zstdStream, 0⟩

def streamClient : DataPlane := ⟨.client, ⟨[.incremental]⟩, some .zstdStream, 0⟩

/-- Eight bytes sent before, on both sides. -/
def eightBytes : ConnectionDataCache :=
  (ConnectionDataCache.withParams Link.pictureParams).updateCacheOwned ⟨1⟩ 1 [1, 2, 3, 4, 5, 6, 7, 8]

def eightSender : Sender Link.storeCodecs := ⟨(), some eightBytes, some .new⟩

def eightReceiver : Receiver Link.storeCodecs := ⟨(), eightBytes, .new⟩

/-- Four of eight bytes change: the receiver records the four that did not, the sender nothing, since
    the encoded diff is longer than the payload. -/
theorem compressed_diff_measured_twice :
    ∃ st' r', (streamRelay.buildFrame Link.storeCodecs eightSender ⟨1⟩ 2 [1, 2, 3, 4, 9, 9, 9, 9]).2.stats =
        some st' ∧
      streamClient.applyInbound Link.storeCodecs eightReceiver
          (streamRelay.buildFrame Link.storeCodecs eightSender ⟨1⟩ 2 [1, 2, 3, 4, 9, 9, 9, 9]).1 =
        (.payload ⟨1⟩ [1, 2, 3, 4, 9, 9, 9, 9], r') ∧
      ConnectionStats.new.gained st' = ⟨0, 0, 0⟩ ∧
      ConnectionStats.new.gained r'.stats = ⟨0, 4, 0⟩ :=
  ⟨_, _, rfl, Prod.ext (by decide +kernel) rfl, by decide +kernel, by decide +kernel⟩

/-- Eight of eight bytes change, and nothing is saved on either side. -/
theorem savings_agree_iff_changed :
    ∃ st' r', (streamRelay.buildFrame Link.storeCodecs eightSender ⟨1⟩ 2 (List.replicate 8 9)).2.stats =
        some st' ∧
      streamClient.applyInbound Link.storeCodecs eightReceiver
          (streamRelay.buildFrame Link.storeCodecs eightSender ⟨1⟩ 2 (List.replicate 8 9)).1 =
        (.payload ⟨1⟩ (List.replicate 8 9), r') ∧
      ConnectionStats.new.gained st' = ConnectionStats.new.gained r'.stats := by
  have hpay : streamClient.applyInbound Link.storeCodecs eightReceiver
      (streamRelay.buildFrame Link.storeCodecs eightSender ⟨1⟩ 2 (List.replicate 8 9)).1 =
        (.payload ⟨1⟩ (List.replicate 8 9), (streamClient.applyInbound Link.storeCodecs eightReceiver
          (streamRelay.buildFrame Link.storeCodecs eightSender ⟨1⟩ 2 (List.replicate 8 9)).1).2) :=
    Prod.ext (by decide +kernel) rfl
  have hpos : ∀ cache, eightSender.cache = some cache → 0 < cache.params.chunkSize := by
    intro cache hcache
    cases hcache
    decide
  have hlock : Link.storeCodecs.Lockstep eightSender.encoder eightReceiver.decoder := ⟨[], rfl, rfl⟩
  have hcomp : streamClient.compression = streamRelay.compression := rfl
  have hiff := savings_agree_iff Link.storeCodecs_roundTrips hcomp hlock hpos rfl hpay
  have hchanged : ∀ cache base old, streamRelay.mayDiffSend = true → eightSender.cache = some cache →
      cache.lastData ⟨1⟩ = some (base, old) →
        CompressesDiff Link.storeCodecs streamRelay eightSender.encoder cache ⟨1⟩ 2
          (List.replicate 8 9) → sharedLen cache.params.chunkSize old (List.replicate 8 9) = 0 := by
    rintro cache base old - hcache hbase -
    cases hcache
    have hheld : eightBytes.lastData ⟨1⟩ = some (1, [1, 2, 3, 4, 5, 6, 7, 8]) := rfl
    obtain ⟨-, rfl⟩ := Prod.mk.inj (Option.some.inj (hheld.symm.trans hbase))
    decide
  obtain ⟨st', hst, hagree⟩ := hiff.mpr hchanged
  exact ⟨st', _, hst, hpay, hagree⟩

end DataPlane

end RemoteX11.Data
