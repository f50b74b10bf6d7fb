/-
  The per-connection diff base and the block diff against it (`incremental.rs`).

  A sender diffs a payload against the last one it sent on the connection, in blocks of `chunkSize`,
  and a receiver rebuilds it from the last one it received. `applyChunks_diffChunks` says that what
  the receiver rebuilds from an equal base is the payload, and `applyIncremental_computeIncremental`
  that this is so for every message the sender's cache produces.

  The floating-point product `(len as f64 * min_savings_ratio) as usize` is the function `minSaved`
  of the base length.
-/
import RemoteX11.Protocol.Binary

namespace RemoteX11.Data

open RemoteX11.Lib RemoteX11.Protocol

/-- `REFERENCE_OVERHEAD`: the fixed header of a diff. -/
def referenceOverhead : Nat := 18

structure DiffParams where
  chunkSize : Nat
  minBlockSize : Nat
  minSaved : Nat → Nat

/-- The last payload of each connection, with its sequence number. -/
structure ConnectionDataCache where
  lastData : ConnectionId → Option (UInt32 × Bytes)
  params : DiffParams

namespace ConnectionDataCache

def withParams (params : DiffParams) : ConnectionDataCache where
  lastData := fun _ => none
  params := params

def updateCacheOwned (cache : ConnectionDataCache) (c : ConnectionId) (sequenceId : UInt32)
    (data : Bytes) : ConnectionDataCache :=
  { cache with lastData := fun d => if d = c then some (sequenceId, data) else cache.lastData d }

def clearConnection (cache : ConnectionDataCache) (c : ConnectionId) : ConnectionDataCache :=
  { cache with lastData := fun d => if d = c then none else cache.lastData d }

/-- `next_sequence_for`: `wrapping_add(1).max(1)` of the base's, or 1. -/
def nextSequenceFor (cache : ConnectionDataCache) (c : ConnectionId) : UInt32 :=
  match cache.lastData c with
  | some (sequenceId, _) => if sequenceId + 1 < 1 then 1 else sequenceId + 1
  | none => 1

@[simp] theorem updateCacheOwned_self (cache : ConnectionDataCache) (c : ConnectionId)
    (seq : UInt32) (data : Bytes) :
    (cache.updateCacheOwned c seq data).lastData c = some (seq, data) := by
  simp [updateCacheOwned]

@[simp] theorem updateCacheOwned_of_ne (cache : ConnectionDataCache) {c d : ConnectionId}
    (seq : UInt32) (data : Bytes) (h : d ≠ c) :
    (cache.updateCacheOwned c seq data).lastData d = cache.lastData d := by
  simp [updateCacheOwned, h]

end ConnectionDataCache

/-! ## Computing a diff -/

/-- `&new_data[offset..chunk_end]`. -/
def blockAt (chunkSize : Nat) (data : Bytes) (offset : Nat) : Bytes :=
  if offset < data.length then (data.drop offset).take (min (offset + chunkSize) data.length - offset)
  else []

/-- `compute_diff_chunks` from `offset` on. Every turn of the loop advances when `chunk_size` is
    positive, so the length of the new payload bounds the number of turns. -/
def diffChunks (chunkSize : Nat) (old new : Bytes) : Nat → Nat → List IncrementalChunk
  | 0, _ => []
  | turns + 1, offset =>
    if offset < new.length then
      let chunkEnd := min (offset + chunkSize) new.length
      let newChunk := blockAt chunkSize new offset
      let oldChunk := blockAt chunkSize old offset
      let rest := diffChunks chunkSize old new turns chunkEnd
      if newChunk ≠ oldChunk then ⟨offset, newChunk.length, newChunk⟩ :: rest else rest
    else []

def computeDiffChunks (params : DiffParams) (old new : Bytes) : List IncrementalChunk :=
  diffChunks params.chunkSize old new new.length 0

/-- Bytes a list of chunks carries. -/
def chunksLen (chunks : List IncrementalChunk) : Nat := (chunks.map fun c => c.data.length).sum

/-- `compute_incremental_inner`; its two callers differ in how a chunk is copied only. -/
def ConnectionDataCache.computeIncremental (cache : ConnectionDataCache) (c : ConnectionId)
    (newSequenceId : UInt32) (new : Bytes) : Option IncrementalStreamDataMessage :=
  match cache.lastData c with
  | none => none
  | some (baseSequenceId, old) =>
    let message := fun chunks : List IncrementalChunk =>
      (⟨c, newSequenceId, baseSequenceId, new.length, chunks⟩ : IncrementalStreamDataMessage)
    if new.length < cache.params.minBlockSize then
      -- below the floor only an equal payload is worth a reference
      if new.length > referenceOverhead ∧ new = old then some (message []) else none
    else
      let chunks := computeDiffChunks cache.params old new
      if chunks = [] then
        if new.length = old.length then some (message chunks) else none
      else if old.length - chunksLen chunks < cache.params.minSaved old.length then none
      else some (message chunks)

/-! ## Applying a diff -/

/-- The chunk loop of `apply_incremental`; a malformed chunk fails the whole frame. -/
def applyChunks (totalLen : Nat) : List IncrementalChunk → Bytes → Option Bytes
  | [], result => some result
  | c :: cs, result =>
    if totalLen < c.offset + c.length ∨ c.data.length ≠ c.length then none
    else applyChunks totalLen cs (overwrite result c.offset c.data)

/-- The base cut or zero-padded to the new length. -/
def resized (base : Bytes) (totalLen : Nat) : Bytes :=
  if base.length ≤ totalLen then base ++ List.replicate (totalLen - base.length) 0
  else base.take totalLen

/-- `apply_incremental`: the payload, and the cache with it as the new base. -/
def ConnectionDataCache.applyIncremental (cache : ConnectionDataCache)
    (msg : IncrementalStreamDataMessage) : Option (Bytes × ConnectionDataCache) :=
  match cache.lastData msg.connectionId with
  | none => none
  | some (cachedSeq, cached) =>
    if cachedSeq ≠ msg.baseSequenceId then none
    else if msg.chunks = [] then
      if cached.length ≠ msg.totalLen then none
      else some (cached, cache.updateCacheOwned msg.connectionId msg.sequenceId cached)
    else
      match applyChunks msg.totalLen msg.chunks (resized cached msg.totalLen) with
      | none => none
      | some data => some (data, cache.updateCacheOwned msg.connectionId msg.sequenceId data)

/-! ## A diff rebuilds the payload -/

theorem resized_length (base : Bytes) (n : Nat) : (resized base n).length = n := by
  unfold resized
  split
  · rw [List.length_append, List.length_replicate]; omega
  · rw [List.length_take]; omega

theorem resized_self (base : Bytes) : resized base base.length = base := by
  simp [resized]

/-- Past its end the base reads as zero, resized or not. -/
theorem getD_resized (base : Bytes) (n i : Nat) (hi : i < n) :
    (resized base n).getD i 0 = base.getD i 0 := by
  simp only [List.getD_eq_getElem?_getD]
  unfold resized
  split
  · by_cases hin : i < base.length
    · rw [List.getElem?_append_left hin]
    · rw [List.getElem?_append_right (by omega), List.getElem?_replicate, if_pos (by omega),
        List.getElem?_eq_none (by omega)]
      rfl
  · rw [List.getElem?_take_of_lt hi]

/-- Within the base, resizing changes nothing. -/
theorem take_drop_resized (base : Bytes) (n o k : Nat) (hb : o + k ≤ base.length) (hn : o + k ≤ n) :
    ((resized base n).drop o).take k = (base.drop o).take k := by
  unfold resized
  split
  · rw [List.drop_append_of_le_length (by omega),
      List.take_append_of_le_length (by rw [List.length_drop]; omega)]
  · rw [List.drop_take, List.take_take, Nat.min_eq_left (by omega)]

theorem blockAt_eq {chunkSize : Nat} {data : Bytes} {o e : Nat} (ho : o < data.length)
    (he : e = min (o + chunkSize) data.length) :
    blockAt chunkSize data o = (data.drop o).take (e - o) ∧
      (blockAt chunkSize data o).length = e - o := by
  have hlen : ((data.drop o).take (e - o)).length = e - o := by
    rw [List.length_take, List.length_drop]; omega
  unfold blockAt
  rw [if_pos ho, ← he]
  exact ⟨rfl, hlen⟩

/-- A block that the diff leaves out is in the resized base already. -/
theorem block_in_base {chunkSize : Nat} {old new : Bytes} {o e : Nat} (ho : o < new.length)
    (he : e = min (o + chunkSize) new.length) (hpos : 0 < chunkSize)
    (heq : blockAt chunkSize new o = blockAt chunkSize old o) :
    ((resized old new.length).drop o).take (e - o) = (new.drop o).take (e - o) := by
  obtain ⟨hnew, hlen⟩ := blockAt_eq ho he
  have hold : o < old.length := by
    by_contra hge
    have : blockAt chunkSize old o = [] := if_neg hge
    rw [heq, this, List.length_nil] at hlen
    omega
  obtain ⟨hob, hol⟩ := @blockAt_eq chunkSize old o _ hold rfl
  rw [heq, hol] at hlen
  rw [take_drop_resized old new.length o (e - o) (by omega) (by omega), ← hnew, heq, hob, ← hlen]

/-- The buffer agrees with the payload before `offset` and with the resized base from there on. -/
def RebuiltTo (old new : Bytes) (offset : Nat) (result : Bytes) : Prop :=
  result.take offset = new.take offset ∧
    result.drop offset = (resized old new.length).drop offset

theorem RebuiltTo.length {old new : Bytes} {offset : Nat} {result : Bytes}
    (h : RebuiltTo old new offset result) (hoff : offset ≤ new.length) :
    result.length = new.length := by
  have h1 := congrArg List.length h.1
  have h2 := congrArg List.length h.2
  rw [List.length_take, List.length_take] at h1
  rw [List.length_drop, List.length_drop, resized_length] at h2
  omega

/-- Rebuilt to its end, the buffer is the payload. -/
theorem RebuiltTo.eq {old new result : Bytes} (h : RebuiltTo old new new.length result) :
    result = new := by
  have hlen := h.length (Nat.le_refl _)
  have htake := h.1
  rw [List.take_length, ← hlen, List.take_length] at htake
  exact htake

/-- One turn of the loop rebuilds one block: it is written over the buffer, or it was there. -/
theorem RebuiltTo.block {chunkSize : Nat} {old new result : Bytes} {o e : Nat}
    (h : RebuiltTo old new o result) (ho : o < new.length)
    (he : e = min (o + chunkSize) new.length) (hpos : 0 < chunkSize) :
    RebuiltTo old new e (overwrite result o (blockAt chunkSize new o)) ∧
      (blockAt chunkSize new o = blockAt chunkSize old o → RebuiltTo old new e result) := by
  obtain ⟨hblock, hblen⟩ := blockAt_eq ho he
  have hlen := h.length (by omega)
  have heo : o + (e - o) = e := by omega
  have hrest : result.drop e = (resized old new.length).drop e := by
    rw [← heo, ← List.drop_drop, h.2, List.drop_drop]
  refine ⟨⟨?_, ?_⟩, ?_⟩
  · have hw := take_overwrite result new o (e - o) (by omega) (by omega) h.1
    rwa [← hblock, heo] at hw
  · have hd := drop_overwrite result o (blockAt chunkSize new o) (by omega)
    rw [hblen, heo] at hd
    rw [hd, hrest]
  · intro heq
    refine ⟨?_, hrest⟩
    rw [← heo, List.take_add, List.take_add, h.1, h.2, block_in_base ho he hpos heq]

/-- The chunk loop of the receiver finishes what the loop of the sender left out. -/
theorem applyChunks_diffChunks (chunkSize : Nat) (old new : Bytes) (hpos : 0 < chunkSize)
    (turns offset : Nat) (result : Bytes) (hturns : new.length ≤ turns + offset)
    (hoff : offset ≤ new.length) (h : RebuiltTo old new offset result) :
    applyChunks new.length (diffChunks chunkSize old new turns offset) result = some new := by
  induction turns generalizing offset result with
  | zero =>
    have heq : offset = new.length := by omega
    subst heq
    rw [diffChunks, applyChunks, h.eq]
  | succ turns ih =>
    by_cases ho : offset < new.length
    · obtain ⟨e, he⟩ : ∃ e, e = min (offset + chunkSize) new.length := ⟨_, rfl⟩
      obtain ⟨hwritten, hkept⟩ := h.block ho he hpos
      have hblen := (blockAt_eq ho he).2
      simp only [diffChunks, if_pos ho, ← he]
      by_cases hne : blockAt chunkSize new offset ≠ blockAt chunkSize old offset
      · rw [if_pos hne]
        simp only [applyChunks]
        rw [if_neg (by rw [hblen]; omega)]
        exact ih e _ (by omega) (by omega) hwritten
      · rw [if_neg hne]
        exact ih e _ (by omega) (by omega) (hkept (not_not.mp hne))
    · have heq : offset = new.length := by omega
      subst heq
      rw [diffChunks, if_neg ho, applyChunks, h.eq]

theorem applyChunks_computeDiffChunks (params : DiffParams) (hpos : 0 < params.chunkSize)
    (old new : Bytes) :
    applyChunks new.length (computeDiffChunks params old new) (resized old new.length) = some new :=
  applyChunks_diffChunks params.chunkSize old new hpos new.length 0 _ (by omega) (by omega)
    ⟨by simp, by simp⟩

/-- Every chunk of a diff declares the length of its own data. -/
theorem diffChunks_sized (chunkSize : Nat) (old new : Bytes) (turns offset : Nat) :
    ∀ c ∈ diffChunks chunkSize old new turns offset, ChunkSized c := by
  induction turns generalizing offset with
  | zero => intro c hc; cases hc
  | succ turns ih =>
    intro c hc
    unfold diffChunks at hc
    by_cases ho : offset < new.length
    · simp only [if_pos ho] at hc
      split at hc
      · rcases List.mem_cons.mp hc with rfl | hc
        · rfl
        · exact ih _ c hc
      · exact ih _ c hc
    · rw [if_neg ho] at hc
      cases hc

/-- What `compute_incremental` returns: a message against the cached base whose chunks rebuild the
    payload; with no chunks the payload is the base. -/
theorem computeIncremental_spec {cache : ConnectionDataCache} {c : ConnectionId} {seq : UInt32}
    {new : Bytes} {msg : IncrementalStreamDataMessage} (hpos : 0 < cache.params.chunkSize)
    (h : cache.computeIncremental c seq new = some msg) :
    ∃ base old, cache.lastData c = some (base, old) ∧ msg.connectionId = c ∧ msg.sequenceId = seq ∧
      msg.baseSequenceId = base ∧ msg.totalLen = new.length ∧ (∀ x ∈ msg.chunks, ChunkSized x) ∧
      (msg.chunks = [] → old = new) ∧
      applyChunks new.length msg.chunks (resized old new.length) = some new := by
  unfold ConnectionDataCache.computeIncremental at h
  cases hc : cache.lastData c with
  | none => simp [hc] at h
  | some cached =>
    obtain ⟨base, old⟩ := cached
    simp only [hc] at h
    have happly := applyChunks_computeDiffChunks cache.params hpos old new
    split at h
    · split at h
      · rename_i hfloor heq
        obtain rfl := Option.some.inj h
        refine ⟨base, old, rfl, rfl, rfl, rfl, rfl, fun x hx => (by cases hx), fun _ => heq.2.symm, ?_⟩
        rw [applyChunks, ← heq.2, resized_self]
      · contradiction
    · split at h
      · rename_i hnil
        split at h
        · rename_i hlen
          obtain rfl := Option.some.inj h
          -- no block differs and the lengths agree
          have hold : old = new := by
            rw [hnil, applyChunks, Option.some.injEq, hlen, resized_self] at happly
            exact happly
          exact ⟨base, old, rfl, rfl, rfl, rfl, rfl,
            fun x hx => diffChunks_sized _ old new _ _ x hx, fun _ => hold, happly⟩
        · contradiction
      · rename_i hcons
        split at h
        · contradiction
        · obtain rfl := Option.some.inj h
          exact ⟨base, old, rfl, rfl, rfl, rfl, rfl,
            fun x hx => diffChunks_sized _ old new _ _ x hx, fun hnil => absurd hnil hcons, happly⟩

/-- **Two equal bases.** A diff computed against the base the receiver holds is applied to exactly
    the payload, which becomes the receiver's base. -/
theorem applyIncremental_computeIncremental {sender receiver : ConnectionDataCache}
    {c : ConnectionId} {seq : UInt32} {new : Bytes} {msg : IncrementalStreamDataMessage}
    (hpos : 0 < sender.params.chunkSize) (h : sender.computeIncremental c seq new = some msg)
    (hbase : ∀ v, sender.lastData c = some v → receiver.lastData c = some v) :
    receiver.applyIncremental msg = some (new, receiver.updateCacheOwned c seq new) := by
  obtain ⟨base, old, hc, hconn, hseq, hb, htotal, -, hnil, happly⟩ := computeIncremental_spec hpos h
  unfold ConnectionDataCache.applyIncremental
  rw [hconn, hbase _ hc]
  simp only [hb, htotal, hseq, ne_eq, not_true_eq_false, if_false]
  split
  · rename_i hempty
    rw [hnil hempty, if_neg (by simp)]
  · rw [happly]

/-! ## The blocks that change -/

/-- The numbers of the blocks in which the payload differs from the base. -/
def changedBlocks (chunkSize : Nat) (old new : Bytes) : List Nat :=
  (List.range ((new.length + chunkSize - 1) / chunkSize)).filter fun i =>
    blockAt chunkSize new (i * chunkSize) ≠ blockAt chunkSize old (i * chunkSize)

/-- The bytes in them. -/
def changedLen (chunkSize : Nat) (old new : Bytes) : Nat :=
  ((changedBlocks chunkSize old new).map fun i => (blockAt chunkSize new (i * chunkSize)).length).sum

/-- The chunk of a block. -/
def blockChunk (chunkSize : Nat) (new : Bytes) (i : Nat) : IncrementalChunk :=
  ⟨i * chunkSize, (blockAt chunkSize new (i * chunkSize)).length, blockAt chunkSize new (i * chunkSize)⟩

/-- The loop from a block on: one chunk for each of the `len` blocks left that differs. -/
theorem diffChunks_blocks {chunkSize : Nat} (hpos : 0 < chunkSize) (old new : Bytes)
    (turns len i : Nat) (hlen : i + len = (new.length + chunkSize - 1) / chunkSize)
    (hturns : new.length ≤ turns + i * chunkSize) :
    diffChunks chunkSize old new turns (i * chunkSize) =
      ((List.range' i len).filter fun j =>
        blockAt chunkSize new (j * chunkSize) ≠ blockAt chunkSize old (j * chunkSize)).map
          (blockChunk chunkSize new) := by
  induction len generalizing turns i with
  | zero =>
    have hend : new.length ≤ i * chunkSize := by
      have := Nat.div_add_mod (new.length + chunkSize - 1) chunkSize
      have hmod := Nat.mod_lt (new.length + chunkSize - 1) hpos
      rw [← hlen, Nat.add_zero, Nat.mul_comm] at this
      omega
    cases turns with
    | zero => rfl
    | succ turns => exact if_neg (Nat.not_lt.mpr hend)
  | succ len ih =>
    have hmul : (i + (len + 1)) * chunkSize ≤ new.length + chunkSize - 1 := by
      rw [hlen]
      exact Nat.div_mul_le_self _ _
    have hstart : i * chunkSize < new.length := by
      have : i * chunkSize + chunkSize ≤ (i + (len + 1)) * chunkSize := by
        rw [← Nat.succ_mul]
        exact Nat.mul_le_mul_right _ (by omega)
      omega
    obtain ⟨turns, rfl⟩ : ∃ t, turns = t + 1 := ⟨turns - 1, by omega⟩
    have hnext : diffChunks chunkSize old new turns (min (i * chunkSize + chunkSize) new.length) =
        ((List.range' (i + 1) len).filter fun j =>
          blockAt chunkSize new (j * chunkSize) ≠ blockAt chunkSize old (j * chunkSize)).map
            (blockChunk chunkSize new) := by
      have hsucc : (i + 1) * chunkSize = i * chunkSize + chunkSize := Nat.succ_mul i chunkSize
      by_cases hwhole : i * chunkSize + chunkSize ≤ new.length
      · rw [Nat.min_eq_left hwhole, ← hsucc]
        exact ih turns (i + 1) (by omega) (by omega)
      · -- the last block
        have hlast : len = 0 := by
          by_contra hne
          have : (i + 2) * chunkSize ≤ (i + (len + 1)) * chunkSize :=
            Nat.mul_le_mul_right _ (by omega)
          rw [show i + 2 = (i + 1) + 1 from rfl, Nat.succ_mul, hsucc] at this
          omega
        rw [hlast, Nat.min_eq_right (by omega)]
        cases turns with
        | zero => rfl
        | succ turns => exact if_neg (Nat.lt_irrefl _)
    rw [diffChunks, if_pos hstart, List.range'_succ, List.filter_cons]
    simp only [hnext]
    split
    · rename_i hne
      rw [if_pos (by simpa using hne)]
      rfl
    · rename_i heq
      rw [if_neg (by simpa using heq)]

/-- **A diff, block by block.** -/
theorem computeDiffChunks_eq {params : DiffParams} (hpos : 0 < params.chunkSize) (old new : Bytes) :
    computeDiffChunks params old new =
      (changedBlocks params.chunkSize old new).map (blockChunk params.chunkSize new) := by
  have h := diffChunks_blocks hpos old new new.length
    ((new.length + params.chunkSize - 1) / params.chunkSize) 0 (by rw [Nat.zero_add]) (by omega)
  rw [Nat.zero_mul, ← List.range_eq_range'] at h
  exact h

theorem changedBlocks_self (chunkSize : Nat) (new : Bytes) : changedBlocks chunkSize new new = [] := by
  simp [changedBlocks]

/-- The chunks of a diff are the blocks in which the payload differs from the base. -/
theorem computeIncremental_chunks {cache : ConnectionDataCache} {c : ConnectionId} {seq : UInt32}
    {new : Bytes} {msg : IncrementalStreamDataMessage} (hpos : 0 < cache.params.chunkSize)
    (h : cache.computeIncremental c seq new = some msg) {base : UInt32} {old : Bytes}
    (hbase : cache.lastData c = some (base, old)) :
    msg = ⟨c, seq, base, new.length,
      (changedBlocks cache.params.chunkSize old new).map (blockChunk cache.params.chunkSize new)⟩ := by
  unfold ConnectionDataCache.computeIncremental at h
  simp only [hbase] at h
  split at h
  · split at h
    · rename_i hequal
      cases h
      rw [← hequal.2, changedBlocks_self]
      rfl
    · cases h
  · rw [computeDiffChunks_eq hpos] at h
    split at h
    · rename_i hnil
      split at h
      · cases h
        rw [hnil]
      · cases h
    · split at h
      · cases h
      · cases h
        rfl

end RemoteX11.Data
