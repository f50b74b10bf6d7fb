/-
  What a receiver makes of a diff it has no reason to trust (`ConnectionDataCache::apply_incremental`).

  `overlaidAt` says what the rebuilt payload is, byte by byte and with no buffer: the byte of the
  last chunk that covers the position, else the base's, else zero. `applyIncrementalMut_exact` says
  which diffs are applied, to exactly that, and that any other leaves the cache as it was.

  Offsets and lengths are unbounded here. The source adds them as `usize`, unchecked:
  `applyIncrementalWord` is the same function with an addition that wraps at 2^64 and a slice that
  panics, and `applyIncrementalWord_decoded` says that on a decoded message there is no difference.
-/
import RemoteX11.Data.Incremental

namespace RemoteX11.Data

open RemoteX11.Lib RemoteX11.Protocol

/-! ## The payload, byte by byte -/

/-- The chunk writes the byte at `i`. -/
def Covers (i : Nat) (c : IncrementalChunk) : Prop := c.offset ≤ i ∧ i < c.offset + c.length

instance (i : Nat) : DecidablePred (Covers i) := fun _ => inferInstanceAs (Decidable (_ ∧ _))

/-- A later chunk wins over an earlier one, and any chunk over the base. -/
def overlaidAt (base : Bytes) (chunks : List IncrementalChunk) (i : Nat) : UInt8 :=
  match chunks.reverse.find? (fun c => Covers i c) with
  | some c => c.data.getD (i - c.offset) 0
  | none => base.getD i 0

/-- The base cut or zero-extended to `totalLen`, under the chunks in their order. -/
def overlaid (base : Bytes) (chunks : List IncrementalChunk) (totalLen : Nat) : Bytes :=
  (List.range totalLen).map (overlaidAt base chunks)

@[simp] theorem overlaid_length (base : Bytes) (chunks : List IncrementalChunk) (n : Nat) :
    (overlaid base chunks n).length = n := by
  simp [overlaid]

@[simp] theorem overlaidAt_nil (base : Bytes) (i : Nat) : overlaidAt base [] i = base.getD i 0 := rfl

/-- The first chunk counts where no later one does. -/
theorem overlaidAt_cons (base : Bytes) (c : IncrementalChunk) (cs : List IncrementalChunk) (i : Nat)
    (hlen : c.data.length = c.length) (hfit : c.offset + c.length ≤ base.length) :
    overlaidAt base (c :: cs) i = overlaidAt (overwrite base c.offset c.data) cs i := by
  have hget := getD_overwrite base c.data c.offset i (by omega)
  unfold overlaidAt
  rw [List.reverse_cons, List.find?_append]
  cases cs.reverse.find? (fun c => Covers i c) with
  | some later => rfl
  | none =>
    simp only [Option.none_or, hget, hlen]
    by_cases hc : Covers i c
    · simp only [List.find?_cons, hc, decide_true]
      exact (if_pos hc).symm
    · simp only [List.find?_cons, hc, decide_false, List.find?_nil]
      exact (if_neg hc).symm

/-- A string is what it holds at each of its positions. -/
theorem eq_overlaid {base d : Bytes} {chunks : List IncrementalChunk} {n : Nat} (hlen : d.length = n)
    (h : ∀ i < n, d.getD i 0 = overlaidAt base chunks i) : d = overlaid base chunks n := by
  apply List.ext_getElem (by rw [hlen, overlaid_length])
  intro i hi hi'
  have hd := h i (by omega)
  rw [List.getD_eq_getElem?_getD, List.getElem?_eq_getElem hi, Option.getD_some] at hd
  rw [hd]
  simp [overlaid]

/-- A chunk the receiver takes: its data has the declared length and it ends within the payload. -/
def ChunkFits (totalLen : Nat) (c : IncrementalChunk) : Prop :=
  c.data.length = c.length ∧ c.offset + c.length ≤ totalLen

instance (totalLen : Nat) : DecidablePred (ChunkFits totalLen) :=
  fun _ => inferInstanceAs (Decidable (_ ∧ _))

/-- The chunk loop fails at a chunk that does not fit, wherever it stands; otherwise it writes the
    chunks one over another. -/
theorem applyChunks_eq (totalLen : Nat) (chunks : List IncrementalChunk) (result : Bytes)
    (hlen : result.length = totalLen) :
    applyChunks totalLen chunks result =
      if ∀ c ∈ chunks, ChunkFits totalLen c then some (overlaid result chunks totalLen) else none := by
  induction chunks generalizing result with
  | nil =>
    rw [if_pos (by simp), applyChunks, Option.some.injEq]
    exact eq_overlaid hlen fun i _ => rfl
  | cons c cs ih =>
    unfold applyChunks
    by_cases hfits : ChunkFits totalLen c
    · obtain ⟨hdata, hend⟩ := hfits
      have hwritten : (overwrite result c.offset c.data).length = totalLen := by
        rw [length_overwrite _ _ _ (by omega), hlen]
      have hsame : overlaid (overwrite result c.offset c.data) cs totalLen =
          overlaid result (c :: cs) totalLen := by
        unfold overlaid
        congr 1
        funext i
        exact (overlaidAt_cons result c cs i hdata (by omega)).symm
      rw [if_neg (by omega), ih _ hwritten, hsame]
      simp only [List.forall_mem_cons, show ChunkFits totalLen c from ⟨hdata, hend⟩, true_and]
    · have hstop : totalLen < c.offset + c.length ∨ c.data.length ≠ c.length := by
        by_contra hnot
        exact hfits ⟨by omega, by omega⟩
      rw [if_pos hstop, if_neg fun h => hfits (h c List.mem_cons_self)]

/-- Resizing shows in the bytes past the base only, which are zero either way. -/
theorem overlaid_resized (base : Bytes) (chunks : List IncrementalChunk) (n : Nat) :
    overlaid (resized base n) chunks n = overlaid base chunks n := by
  unfold overlaid
  apply List.map_congr_left
  intro i hi
  have hi : i < n := List.mem_range.mp hi
  unfold overlaidAt
  cases chunks.reverse.find? (fun c => Covers i c) with
  | some c => rfl
  | none => exact getD_resized base n i hi

/-! ## A diff is applied whole or not at all -/

/-- `apply_incremental` on `&mut self`: what it returns, and the cache it leaves. -/
def ConnectionDataCache.applyIncrementalMut (cache : ConnectionDataCache)
    (msg : IncrementalStreamDataMessage) : Option Bytes × ConnectionDataCache :=
  match cache.lastData msg.connectionId with
  | none => (none, cache)
  | some (cachedSeq, cached) =>
    if cachedSeq ≠ msg.baseSequenceId then (none, cache)
    else if msg.chunks = [] then
      if cached.length ≠ msg.totalLen then (none, cache)
      else (some cached, cache.updateCacheOwned msg.connectionId msg.sequenceId cached)
    else
      match applyChunks msg.totalLen msg.chunks (resized cached msg.totalLen) with
      | none => (none, cache)
      | some data => (some data, cache.updateCacheOwned msg.connectionId msg.sequenceId data)

/-- The diff is against the base, and every chunk of it fits; without chunks it is a reference to the
    base, and keeps its length. -/
structure Acceptable (base : UInt32 × Bytes) (msg : IncrementalStreamDataMessage) : Prop where
  current : base.1 = msg.baseSequenceId
  fits : ∀ c ∈ msg.chunks, ChunkFits msg.totalLen c
  reference : msg.chunks = [] → base.2.length = msg.totalLen

/-- An acceptable diff is applied, to the overlaid base. -/
theorem applyIncrementalMut_of_acceptable {cache : ConnectionDataCache}
    {msg : IncrementalStreamDataMessage} {base : UInt32 × Bytes}
    (hbase : cache.lastData msg.connectionId = some base) (hok : Acceptable base msg) :
    cache.applyIncrementalMut msg =
      (some (overlaid base.2 msg.chunks msg.totalLen),
        cache.updateCacheOwned msg.connectionId msg.sequenceId
          (overlaid base.2 msg.chunks msg.totalLen)) := by
  unfold ConnectionDataCache.applyIncrementalMut
  simp only [hbase, ne_eq, hok.current, not_true_eq_false, if_false]
  by_cases hnil : msg.chunks = []
  · have hlen := hok.reference hnil
    have hsame : overlaid base.2 msg.chunks msg.totalLen = base.2 := by
      rw [hnil]
      exact (eq_overlaid hlen fun i _ => rfl).symm
    rw [if_pos hnil, if_neg (not_not.mpr hlen), hsame]
  · rw [if_neg hnil, applyChunks_eq _ _ _ (resized_length base.2 msg.totalLen), if_pos hok.fits,
      overlaid_resized]

/-- Any other diff changes nothing. -/
theorem applyIncrementalMut_of_not_acceptable {cache : ConnectionDataCache}
    {msg : IncrementalStreamDataMessage}
    (hno : ∀ base, cache.lastData msg.connectionId = some base → ¬ Acceptable base msg) :
    cache.applyIncrementalMut msg = (none, cache) := by
  unfold ConnectionDataCache.applyIncrementalMut
  cases hbase : cache.lastData msg.connectionId with
  | none => rfl
  | some base =>
    have hno := hno base hbase
    by_cases hseq : base.1 = msg.baseSequenceId
    · simp only [ne_eq, hseq, not_true_eq_false, if_false]
      by_cases hnil : msg.chunks = []
      · have hlen : base.2.length ≠ msg.totalLen := by
          intro hlen
          exact hno ⟨hseq, by simp [hnil], fun _ => hlen⟩
        rw [if_pos hnil, if_pos hlen]
      · have hfits : ¬ ∀ c ∈ msg.chunks, ChunkFits msg.totalLen c := by
          intro hfits
          exact hno ⟨hseq, hfits, fun h => absurd h hnil⟩
        rw [if_neg hnil, applyChunks_eq _ _ _ (resized_length base.2 msg.totalLen), if_neg hfits]
    · simp only [ne_eq, hseq, not_false_eq_true, if_true]

/-- The two forms of the function differ in how the cache is handed back. -/
theorem applyIncremental_eq_mut (cache : ConnectionDataCache) (msg : IncrementalStreamDataMessage) :
    cache.applyIncremental msg =
      (cache.applyIncrementalMut msg).1.map fun d => (d, (cache.applyIncrementalMut msg).2) := by
  unfold ConnectionDataCache.applyIncremental ConnectionDataCache.applyIncrementalMut
  cases cache.lastData msg.connectionId with
  | none => rfl
  | some base =>
    simp only
    split
    · rfl
    · split
      · split <;> rfl
      · cases applyChunks msg.totalLen msg.chunks (resized base.2 msg.totalLen) <;> rfl

/-! ## The addition of a machine -/

/-- The chunk loop with the source's `usize`: the end of a chunk wraps at 2^64, and slicing from
    behind it panics. `none` is the panic. -/
def applyChunksWord (totalLen : Nat) : List IncrementalChunk → Bytes → Option (Option Bytes)
  | [], result => some (some result)
  | c :: cs, result =>
    let chunkEnd := (c.offset + c.length) % 2 ^ 64
    if totalLen < chunkEnd ∨ c.data.length ≠ c.length then some none
    else if chunkEnd < c.offset then none
    else applyChunksWord totalLen cs (overwrite result c.offset c.data)

/-- `apply_incremental` over that loop. -/
def ConnectionDataCache.applyIncrementalWord (cache : ConnectionDataCache)
    (msg : IncrementalStreamDataMessage) : Option (Option Bytes × ConnectionDataCache) :=
  match cache.lastData msg.connectionId with
  | none => some (none, cache)
  | some (cachedSeq, cached) =>
    if cachedSeq ≠ msg.baseSequenceId then some (none, cache)
    else if msg.chunks = [] then
      if cached.length ≠ msg.totalLen then some (none, cache)
      else some (some cached, cache.updateCacheOwned msg.connectionId msg.sequenceId cached)
    else
      match applyChunksWord msg.totalLen msg.chunks (resized cached msg.totalLen) with
      | none => none
      | some none => some (none, cache)
      | some (some data) =>
        some (some data, cache.updateCacheOwned msg.connectionId msg.sequenceId data)

theorem applyChunksWord_eq (totalLen : Nat) (chunks : List IncrementalChunk) (result : Bytes)
    (h : ∀ c ∈ chunks, c.offset + c.length < 2 ^ 64) :
    applyChunksWord totalLen chunks result = some (applyChunks totalLen chunks result) := by
  induction chunks generalizing result with
  | nil => rfl
  | cons c cs ih =>
    have hc := h c List.mem_cons_self
    have hcs := fun d hd => h d (List.mem_cons_of_mem c hd)
    simp only [applyChunksWord, applyChunks, Nat.mod_eq_of_lt hc,
      if_neg (show ¬ c.offset + c.length < c.offset by omega), ih _ hcs]
    split <;> rfl

/-- The decoder's offsets and lengths are `u32`s. -/
theorem decodeChunkParts_lt {data : Bytes} {n pos : Nat} {parts : List (Nat × Nat × Nat)}
    (h : decodeChunkParts data n pos = .ok parts) :
    ∀ p ∈ parts, p.1 < 2 ^ 32 ∧ p.2.1 < 2 ^ 32 := by
  induction n generalizing pos parts with
  | zero =>
    cases h
    simp
  | succ n ih =>
    unfold decodeChunkParts at h
    split at h
    · cases h
    · dsimp only at h
      split at h
      · cases h
      · cases hrest : decodeChunkParts data n (pos + 8 + (beU32At data (pos + 4)).toNat) with
        | error e => simp [hrest, bind, Except.bind] at h
        | ok rest =>
          simp only [hrest, bind, Except.bind, Except.ok.injEq] at h
          subst h
          intro p hp
          rcases List.mem_cons.mp hp with rfl | hp
          · exact ⟨UInt32.toNat_lt _, UInt32.toNat_lt _⟩
          · exact ih hrest p hp

/-- **No overflow from the wire.** A decoded message never reaches the wrap or the panic. -/
theorem applyIncrementalWord_decoded (cache : ConnectionDataCache) {data : Bytes}
    {msg : IncrementalStreamDataMessage} (h : IncrementalStreamDataMessage.decodePayload data = .ok msg) :
    cache.applyIncrementalWord msg = some (cache.applyIncrementalMut msg) := by
  have hsmall : ∀ c ∈ msg.chunks, c.offset + c.length < 2 ^ 64 := by
    unfold IncrementalStreamDataMessage.decodePayload decodeIncrementalParts at h
    split at h
    · cases h
    · cases hparts : decodeChunkParts data (beU16At data 16) 18 with
      | error e => simp [hparts, bind, Except.bind] at h
      | ok parts =>
        simp only [hparts, bind, Except.bind, Except.ok.injEq] at h
        subst h
        intro c hc
        obtain ⟨p, hp, rfl⟩ := List.mem_map.mp hc
        have := decodeChunkParts_lt hparts p hp
        simp only [chunkAt]
        omega
  unfold ConnectionDataCache.applyIncrementalWord ConnectionDataCache.applyIncrementalMut
  cases cache.lastData msg.connectionId with
  | none => rfl
  | some base =>
    simp only [applyChunksWord_eq _ _ _ hsmall]
    split
    · rfl
    · split
      · split <;> rfl
      · cases applyChunks msg.totalLen msg.chunks (resized base.2 msg.totalLen) <;> rfl

/-! ## Whole or not at all -/

/-- **Applied whole or not at all.** For every cache and every diff: nothing is returned and the cache
    is as it was, or what is returned is the base of that connection, cut or zero-extended to the
    declared length and overlaid by the chunks in their order, it is the new base of that connection
    under the diff's sequence number, and every other connection keeps its own. It is returned only
    for the base the diff names, when every chunk has its declared length and ends within the
    payload, and a diff without chunks has the length of the base; and whenever all that holds, it is.
    On a decoded diff the source's `usize` arithmetic gives the same, and does not panic. -/
theorem applyIncrementalMut_exact (cache : ConnectionDataCache) (msg : IncrementalStreamDataMessage) :
    (match cache.applyIncrementalMut msg with
      | (none, cache') => cache' = cache
      | (some d, cache') => ∃ base : Bytes,
          cache.lastData msg.connectionId = some (msg.baseSequenceId, base) ∧
          d.length = msg.totalLen ∧ d = overlaid base msg.chunks msg.totalLen ∧
          cache'.lastData msg.connectionId = some (msg.sequenceId, d) ∧
          (∀ c, c ≠ msg.connectionId → cache'.lastData c = cache.lastData c) ∧
          cache'.params = cache.params ∧
          (∀ x ∈ msg.chunks, x.data.length = x.length ∧ x.offset + x.length ≤ msg.totalLen) ∧
          (msg.chunks = [] → base.length = msg.totalLen)) ∧
      (∀ base, cache.lastData msg.connectionId = some base → Acceptable base msg →
        (cache.applyIncrementalMut msg).1 = some (overlaid base.2 msg.chunks msg.totalLen)) ∧
      (∀ data, IncrementalStreamDataMessage.decodePayload data = .ok msg →
        cache.applyIncrementalWord msg = some (cache.applyIncrementalMut msg)) := by
  refine ⟨?_, fun base hbase hok => ?_, fun data hdata => applyIncrementalWord_decoded cache hdata⟩
  · by_cases hok : ∃ base, cache.lastData msg.connectionId = some base ∧ Acceptable base msg
    · obtain ⟨⟨seq, base⟩, hbase, hok⟩ := hok
      rw [applyIncrementalMut_of_acceptable hbase hok]
      obtain rfl : seq = msg.baseSequenceId := hok.current
      exact ⟨base, hbase, overlaid_length base _ _, rfl, by simp,
        fun c hc => cache.updateCacheOwned_of_ne _ _ hc, rfl, hok.fits, hok.reference⟩
    · rw [applyIncrementalMut_of_not_acceptable fun base hbase h => hok ⟨base, hbase, h⟩]
  · rw [applyIncrementalMut_of_acceptable hbase hok]

/-- Two overlapping chunks over a base that grows, then the same diff with its second chunk cut off. -/
example :
    let cache := (ConnectionDataCache.withParams ⟨4, 0, fun _ => 0⟩).updateCacheOwned ⟨7⟩ 1 [1, 2, 3]
    (cache.applyIncrementalMut ⟨⟨7⟩, 2, 1, 6, [⟨1, 3, [8, 8, 8]⟩, ⟨3, 2, [9, 9]⟩]⟩).1 =
        some [1, 8, 8, 9, 9, 0] ∧
      (cache.applyIncrementalMut ⟨⟨7⟩, 2, 1, 6, [⟨1, 3, [8, 8, 8]⟩, ⟨3, 2, [9]⟩]⟩).1 = none := by
  decide

end RemoteX11.Data
