/-
  Encoding again what was decoded (`protocol/binary.rs`).

  The two layouts with a fixed header take the rest of the payload as data, so the message they decode
  to encodes to the same bytes. The chunks of a diff end where their own lengths say (`chunksEnd`), and
  nothing checks that this is the end of the payload: `reencode_iff` says when a decoded message
  encodes to the bytes it came from.
-/
import RemoteX11.Protocol.Binary

namespace RemoteX11.Protocol

open RemoteX11.Lib

/-! ## A field that was read -/

theorem be32_beU32At {data : Bytes} {pos : Nat} (h : pos + 4 ≤ data.length) :
    be32 (beU32At data pos) = (data.drop pos).take 4 := by
  have hlen : ((data.drop pos).take 4).length = 4 := by
    rw [List.length_take, List.length_drop]
    omega
  have hlt : beNat ((data.drop pos).take 4) < 2 ^ 32 := by
    have := beNat_lt ((data.drop pos).take 4)
    rwa [hlen] at this
  have hbytes := beBytes_beNat ((data.drop pos).take 4)
  rw [hlen] at hbytes
  rw [be32, beU32At, u32_toNat_ofNat hlt, hbytes]

theorem beBytes_beU16At {data : Bytes} {pos : Nat} (h : pos + 2 ≤ data.length) :
    beBytes 2 (beU16At data pos) = (data.drop pos).take 2 := by
  have hlen : ((data.drop pos).take 2).length = 2 := by
    rw [List.length_take, List.length_drop]
    omega
  have hbytes := beBytes_beNat ((data.drop pos).take 2)
  rwa [hlen] at hbytes

theorem beU16At_lt (data : Bytes) (pos : Nat) : beU16At data pos < 2 ^ 16 := by
  have hlt := beNat_lt ((data.drop pos).take 2)
  have hle : ((data.drop pos).take 2).length ≤ 2 := List.length_take_le _ _
  exact Nat.lt_of_lt_of_le hlt (Nat.pow_le_pow_right (by decide) hle)

/-- Two neighbouring slices, from `pos` on. -/
theorem take_append_slice (data : Bytes) (pos m n : Nat) :
    (data.drop pos).take m ++ (data.drop (pos + m)).take n = (data.drop pos).take (m + n) := by
  rw [List.take_add, List.drop_drop]

/-! ## The chunks of a diff -/

/-- Where `n` chunks from `pos` on end, by their length fields. -/
def chunksEnd (data : Bytes) : Nat → Nat → Nat
  | 0, pos => pos
  | n + 1, pos => chunksEnd data n (pos + 8 + (beU32At data (pos + 4)).toNat)

theorem le_chunksEnd (data : Bytes) (n pos : Nat) : pos ≤ chunksEnd data n pos := by
  induction n generalizing pos with
  | zero => exact Nat.le_refl pos
  | succ n ih => exact Nat.le_trans (by omega) (ih _)

/-- What the chunk loop of the decoder returns: as many chunks as announced, all inside the payload,
    whose bytes are those between their start and their end. -/
structure ChunksRead (data : Bytes) (n pos : Nat) (parts : List (Nat × Nat × Nat)) : Prop where
  count : parts.length = n
  inside : chunksEnd data n pos ≤ data.length
  fits : ∀ c ∈ parts.map (chunkAt data), c.offset < 2 ^ 32 ∧ c.length < 2 ^ 32
  bytes : ((parts.map (chunkAt data)).map chunkBytes).flatten =
    (data.drop pos).take (chunksEnd data n pos - pos)

theorem decodeChunkParts_read {data : Bytes} {n pos : Nat} {parts : List (Nat × Nat × Nat)}
    (hpos : pos ≤ data.length) (h : decodeChunkParts data n pos = .ok parts) :
    ChunksRead data n pos parts := by
  induction n generalizing pos parts with
  | zero =>
    cases h
    exact ⟨rfl, hpos, by simp, by simp [chunksEnd]⟩
  | succ n ih =>
    unfold decodeChunkParts at h
    split at h
    · cases h
    · dsimp only at h
      split at h
      · cases h
      · rename_i hheader hdata
        obtain ⟨len, hlen⟩ : ∃ len, len = (beU32At data (pos + 4)).toNat := ⟨_, rfl⟩
        rw [← hlen] at h hdata
        cases hrest : decodeChunkParts data n (pos + 8 + len) with
        | error e => simp [hrest, bind, Except.bind] at h
        | ok rest =>
          simp only [hrest, bind, Except.bind, Except.ok.injEq] at h
          subst h
          obtain ⟨hcount, hinside, hfits, hbytes⟩ := ih (by omega) hrest
          have hend : chunksEnd data (n + 1) pos = chunksEnd data n (pos + 8 + len) := by
            rw [chunksEnd, hlen]
          have hle := le_chunksEnd data n (pos + 8 + len)
          have hlt : len < 2 ^ 32 := hlen ▸ UInt32.toNat_lt _
          -- the header and the data of the first chunk, then the chunks behind it
          have hfirst : chunkBytes (chunkAt data ((beU32At data pos).toNat, len, pos + 8)) =
              (data.drop pos).take (8 + len) := by
            have hoff := @be32_beU32At data pos (by omega)
            have hlf := @be32_beU32At data (pos + 4) (by omega)
            rw [be32] at hoff hlf
            rw [← hlen] at hlf
            simp only [chunkBytes, chunkAt]
            rw [hoff, hlf, ← List.append_assoc, take_append_slice, take_append_slice]
          refine ⟨by rw [List.length_cons, hcount], by omega, ?_, ?_⟩
          · intro c hc
            rcases List.mem_cons.mp hc with rfl | hc
            · exact ⟨UInt32.toNat_lt _, hlt⟩
            · exact hfits c hc
          · have hslice := take_append_slice data pos (8 + len)
              (chunksEnd data n (pos + 8 + len) - (pos + 8 + len))
            rw [show pos + (8 + len) = pos + 8 + len by omega] at hslice
            rw [List.map_cons, List.map_cons, List.flatten_cons, hfirst, hbytes, hend, hslice]
            congr 1
            omega

/-- The payload of a decoded diff is the part of the bytes that its chunks reach. -/
theorem decodePayload_incremental_payload {data : Bytes} {m : IncrementalStreamDataMessage}
    (h : IncrementalStreamDataMessage.decodePayload data = .ok m) :
    (BinaryMessage.incrementalStreamData m).Fits ∧
      (BinaryMessage.incrementalStreamData m).payload =
        data.take (chunksEnd data (beU16At data 16) 18) ∧
      chunksEnd data (beU16At data 16) 18 ≤ data.length := by
  unfold IncrementalStreamDataMessage.decodePayload decodeIncrementalParts at h
  split at h
  · cases h
  · rename_i hmin
    cases hparts : decodeChunkParts data (beU16At data 16) 18 with
    | error e => simp [hparts, bind, Except.bind] at h
    | ok parts =>
      simp only [hparts, bind, Except.bind, Except.ok.injEq] at h
      subst h
      obtain ⟨hcount, hinside, hfits, hbytes⟩ := decodeChunkParts_read (by omega) hparts
      have hle := le_chunksEnd data (beU16At data 16) 18
      have hlen : (parts.map (chunkAt data)).length = beU16At data 16 := by
        rw [List.length_map, hcount]
      refine ⟨⟨UInt32.toNat_lt _, ?_, hfits⟩, ?_, hinside⟩
      · have hcount16 := beU16At_lt data 16
        rwa [← hlen] at hcount16
      · have h0 := @be32_beU32At data 0 (by omega)
        have h4 := @be32_beU32At data 4 (by omega)
        have h8 := @be32_beU32At data 8 (by omega)
        have h12 := @be32_beU32At data 12 (by omega)
        have h16 := @beBytes_beU16At data 16 (by omega)
        simp only [BinaryMessage.payload, buildIncremental, hlen, hbytes]
        rw [be32] at h12
        rw [h0, h4, h8, h12, h16]
        rw [← List.append_assoc, ← List.append_assoc, ← List.append_assoc]
        have hjoin := take_append_slice data 0
        simp only [Nat.zero_add, List.drop_zero] at hjoin ⊢
        rw [hjoin, hjoin, hjoin, hjoin, hjoin]
        congr 1
        omega

/-! ## The four shapes -/

/-- An encoder's result on a buffer of its own: `?`, then `freeze`. -/
def ownBuffer : Result Unit × Bytes → Result Bytes
  | (.error e, _) => .error e
  | (.ok (), buf) => .ok buf

/-- `encode_payload`. -/
def BinaryMessage.encodePayload (b : BinaryMessage) : Result Bytes :=
  match b with
  | .streamData _ => ownBuffer (b.encodePayloadInto [])
  | .compressedStreamData _ => ownBuffer (b.encodePayloadInto [])
  | .incrementalStreamData m => m.encodePayload
  | .compressedIncrementalStreamData _ => ownBuffer (b.encodePayloadInto [])

/-- The frame types of the data plane. -/
inductive BinaryKind where
  | streamData
  | compressedStreamData
  | incrementalStreamData
  | compressedIncrementalStreamData
  deriving DecidableEq, Repr

namespace BinaryKind

/-- `decode_payload` of each. -/
def decodePayload (data : Bytes) : BinaryKind → Result BinaryMessage
  | streamData => (StreamDataMessage.decodePayload data).map .streamData
  | compressedStreamData => (CompressedStreamDataMessage.decodePayload data).map .compressedStreamData
  | incrementalStreamData =>
    (IncrementalStreamDataMessage.decodePayload data).map .incrementalStreamData
  | compressedIncrementalStreamData =>
    (CompressedIncrementalStreamDataMessage.decodePayload data).map .compressedIncrementalStreamData

/-- The payload is within the encoder's limit, and the chunks of a diff reach to its end. -/
def Consumed (data : Bytes) : BinaryKind → Prop
  | streamData => data.length ≤ maxFrameSize + 8
  | compressedStreamData => data.length ≤ maxFrameSize + 12
  | incrementalStreamData =>
    data.length ≤ maxFrameSize ∧ chunksEnd data (beU16At data 16) 18 = data.length
  | compressedIncrementalStreamData => data.length ≤ maxFrameSize + 12

instance (data : Bytes) : DecidablePred (Consumed data)
  | streamData => inferInstanceAs (Decidable (data.length ≤ maxFrameSize + 8))
  | compressedStreamData => inferInstanceAs (Decidable (data.length ≤ maxFrameSize + 12))
  | incrementalStreamData => inferInstanceAs (Decidable (_ ∧ _))
  | compressedIncrementalStreamData => inferInstanceAs (Decidable (data.length ≤ maxFrameSize + 12))

end BinaryKind

theorem decodeConnSeqParts_reencode {data d : Bytes} {label : String} {conn seq : UInt32}
    (h : decodeConnSeqParts data label = .ok (conn, seq, d)) :
    be32 conn ++ (be32 seq ++ d) = data ∧ data.length = 8 + d.length := by
  unfold decodeConnSeqParts at h
  split at h
  · cases h
  · cases h
    have hjoin := take_append_slice data 0
    simp only [Nat.zero_add, List.drop_zero] at hjoin
    rw [@be32_beU32At data 0 (by omega), @be32_beU32At data 4 (by omega), ← List.append_assoc,
      List.drop_zero, hjoin, List.take_append_drop, List.length_drop]
    exact ⟨rfl, by omega⟩

theorem decodeConnSeqLenParts_reencode {data d : Bytes} {label : String} {conn seq : UInt32}
    {n : Nat} (h : decodeConnSeqLenParts data label = .ok (conn, seq, n, d)) :
    be32 conn ++ (be32 seq ++ (beBytes 4 n ++ d)) = data ∧ n < 2 ^ 32 ∧ data.length = 12 + d.length := by
  unfold decodeConnSeqLenParts at h
  split at h
  · cases h
  · cases h
    have hjoin := take_append_slice data 0
    simp only [Nat.zero_add, List.drop_zero] at hjoin
    have h8 := @be32_beU32At data 8 (by omega)
    rw [be32] at h8
    rw [@be32_beU32At data 0 (by omega), @be32_beU32At data 4 (by omega), h8, ← List.append_assoc,
      ← List.append_assoc, List.drop_zero, hjoin, hjoin, List.take_append_drop, List.length_drop]
    exact ⟨rfl, UInt32.toNat_lt _, by omega⟩

/-- The layout with a length encodes again within the limit. -/
theorem encodeConnSeqLenInto_iff {data d : Bytes} {label : String} {conn seq : UInt32} {n : Nat}
    (hlay : be32 conn ++ (be32 seq ++ (beBytes 4 n ++ d)) = data) (hn : n < 2 ^ 32)
    (hlen : data.length = 12 + d.length) :
    encodeConnSeqLenInto [] conn seq n d label = (.ok (), data) ↔ data.length ≤ maxFrameSize + 12 := by
  unfold encodeConnSeqLenInto
  rw [if_neg (Nat.not_le.mpr hn), List.nil_append, hlay]
  by_cases hd : d.length > maxFrameSize
  · rw [if_pos hd]
    constructor
    · intro h
      cases h
    · intro h
      omega
  · rw [if_neg hd]
    exact ⟨fun _ => by omega, fun _ => rfl⟩

theorem ownBuffer_eq_ok {r : Result Unit × Bytes} {data : Bytes} :
    ownBuffer r = .ok data ↔ r = (.ok (), data) := by
  rcases r with ⟨_ | _, buf⟩
  · simp [ownBuffer]
  · simp [ownBuffer]

theorem streamData_reencode {data : Bytes} {m : StreamDataMessage}
    (h : StreamDataMessage.decodePayload data = .ok m) :
    (BinaryMessage.streamData m).encodePayload = .ok data ↔ data.length ≤ maxFrameSize + 8 := by
  unfold StreamDataMessage.decodePayload at h
  cases hparts : decodeConnSeqParts data "StreamData" with
  | error e => simp [hparts, bind, Except.bind] at h
  | ok parts =>
    obtain ⟨conn, seq, d⟩ := parts
    simp only [hparts, bind, Except.bind, Except.ok.injEq] at h
    subst h
    obtain ⟨hlay, hlen⟩ := decodeConnSeqParts_reencode hparts
    rw [BinaryMessage.encodePayload, ownBuffer_eq_ok]
    simp only [BinaryMessage.encodePayloadInto]
    unfold encodeConnSeqInto
    rw [List.nil_append, hlay]
    by_cases hd : d.length > maxFrameSize
    · rw [if_pos hd]
      constructor
      · intro h
        cases h
      · intro h
        omega
    · rw [if_neg hd]
      exact ⟨fun _ => by omega, fun _ => rfl⟩

theorem incrementalStreamData_reencode {data : Bytes} {m : IncrementalStreamDataMessage}
    (h : IncrementalStreamDataMessage.decodePayload data = .ok m) :
    (BinaryMessage.incrementalStreamData m).encodePayload = .ok data ↔
      data.length ≤ maxFrameSize ∧ chunksEnd data (beU16At data 16) 18 = data.length := by
  obtain ⟨hfits, hpay, hinside⟩ := decodePayload_incremental_payload h
  obtain ⟨buf, hbuf⟩ := BinaryMessage.encodeIncrementalInto_of_fits hfits []
  have hinto : (BinaryMessage.incrementalStreamData m).encodePayloadInto [] = (.ok (), buf) := hbuf
  have hpayload := (BinaryMessage.encodePayloadInto_ok hinto).1
  rw [List.nil_append, hpay] at hpayload
  have hlen : buf.length = chunksEnd data (beU16At data 16) 18 := by
    rw [hpayload, List.length_take, Nat.min_eq_left hinside]
  rw [BinaryMessage.encodePayload, IncrementalStreamDataMessage.encodePayload, hbuf]
  by_cases hmax : buf.length > maxFrameSize
  · simp only [if_pos hmax]
    constructor
    · intro h
      cases h
    · rintro ⟨hle, hend⟩
      omega
  · simp only [if_neg hmax, Except.ok.injEq]
    constructor
    · intro heq
      subst heq
      exact ⟨by omega, hlen.symm⟩
    · rintro ⟨-, hend⟩
      rw [hpayload, hend, List.take_length]

/-- **Encoding again.** What a decoder of the data plane accepts encodes to the same bytes exactly when
    it is within the encoder's limit and, for a diff, no byte follows its last chunk. -/
theorem reencode_iff (kind : BinaryKind) {data : Bytes} {b : BinaryMessage}
    (h : kind.decodePayload data = .ok b) : b.encodePayload = .ok data ↔ kind.Consumed data := by
  cases kind with
  | streamData =>
    cases hm : StreamDataMessage.decodePayload data with
    | error e => simp [BinaryKind.decodePayload, hm, Except.map] at h
    | ok m =>
      simp only [BinaryKind.decodePayload, hm, Except.map, Except.ok.injEq] at h
      subst h
      exact streamData_reencode hm
  | compressedStreamData =>
    unfold BinaryKind.decodePayload CompressedStreamDataMessage.decodePayload at h
    cases hparts : decodeConnSeqLenParts data "CompressedStreamData" with
    | error e => simp [hparts, bind, Except.bind, Except.map] at h
    | ok parts =>
      simp only [hparts, bind, Except.bind, Except.map, Except.ok.injEq] at h
      subst h
      obtain ⟨hlay, hn, hlen⟩ := decodeConnSeqLenParts_reencode hparts
      rw [BinaryMessage.encodePayload, ownBuffer_eq_ok]
      exact encodeConnSeqLenInto_iff hlay hn hlen
  | incrementalStreamData =>
    cases hm : IncrementalStreamDataMessage.decodePayload data with
    | error e => simp [BinaryKind.decodePayload, hm, Except.map] at h
    | ok m =>
      simp only [BinaryKind.decodePayload, hm, Except.map, Except.ok.injEq] at h
      subst h
      exact incrementalStreamData_reencode hm
  | compressedIncrementalStreamData =>
    unfold BinaryKind.decodePayload CompressedIncrementalStreamDataMessage.decodePayload at h
    cases hparts : decodeConnSeqLenParts data "CompressedIncrementalStreamData" with
    | error e => simp [hparts, bind, Except.bind, Except.map] at h
    | ok parts =>
      simp only [hparts, bind, Except.bind, Except.map, Except.ok.injEq] at h
      subst h
      obtain ⟨hlay, hn, hlen⟩ := decodeConnSeqLenParts_reencode hparts
      rw [BinaryMessage.encodePayload, ownBuffer_eq_ok]
      exact encodeConnSeqLenInto_iff hlay hn hlen

/-- A reference frame with a byte behind it. -/
def trailedReference : Bytes := [0, 0, 0, 7, 0, 0, 0, 2, 0, 0, 0, 1, 0, 0, 0, 32, 0, 0, 0xFF]

/-- It is accepted, and the byte is gone. -/
theorem trailing_byte_ignored :
    BinaryKind.incrementalStreamData.decodePayload trailedReference =
        .ok (.incrementalStreamData ⟨⟨7⟩, 2, 1, 32, []⟩) ∧
      (BinaryMessage.incrementalStreamData ⟨⟨7⟩, 2, 1, 32, []⟩).encodePayload =
        .ok (trailedReference.take 18) ∧
      (BinaryMessage.incrementalStreamData ⟨⟨7⟩, 2, 1, 32, []⟩).encodePayload ≠ .ok trailedReference := by
  decide +kernel

/-- A diff of one chunk that ends with the payload. -/
theorem reencode_iff_chunk :
    ∃ b, BinaryKind.incrementalStreamData.decodePayload
        [0, 0, 0, 7, 0, 0, 0, 2, 0, 0, 0, 1, 0, 0, 0, 32, 0, 1, 0, 0, 0, 4, 0, 0, 0, 1, 0xFF] = .ok b ∧
      b.encodePayload = .ok
        [0, 0, 0, 7, 0, 0, 0, 2, 0, 0, 0, 1, 0, 0, 0, 32, 0, 1, 0, 0, 0, 4, 0, 0, 0, 1, 0xFF] :=
  ⟨_, rfl, (reencode_iff .incrementalStreamData rfl).mpr (by decide)⟩

end RemoteX11.Protocol
