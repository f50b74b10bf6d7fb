/-
  The compact binary codec of the four data-plane payloads (`protocol/binary.rs`).

  An encoder appends to a buffer and returns the buffer together with its result, so that what a
  failing encoder has already appended stays visible. `decodePayload` copies out of the frame and
  `decodePayloadOwned` slices it; on byte strings they differ in the code they run, not in the
  value (the four `decodePayloadOwned_eq`).

  `BinaryMessage.payload` is the layout in closed form. `encodePayloadInto_ok` says what a
  successful encode appends, and the `decodePayload_*` theorems that it decodes to the same message,
  for an incremental message when every chunk declares the length of its own data (`ChunksSized`).
-/
import RemoteX11.Protocol.Messages

namespace RemoteX11.Protocol

open RemoteX11.Lib

/-- `MAX_FRAME_SIZE`, 16 MiB. -/
def maxFrameSize : Nat := 16 * 1024 * 1024

/-- `to_be_bytes` of a `u32`. -/
def be32 (x : UInt32) : Bytes := beBytes 4 x.toNat

/-- `be_u32_at`: the big-endian `u32` at `pos`; the caller guarantees the bounds. -/
def beU32At (data : Bytes) (pos : Nat) : UInt32 :=
  UInt32.ofNat (beNat ((data.drop pos).take 4))

/-- The big-endian `u16` at `pos`. -/
def beU16At (data : Bytes) (pos : Nat) : Nat :=
  beNat ((data.drop pos).take 2)

@[simp] theorem be32_length (x : UInt32) : (be32 x).length = 4 := beBytes_length 4 _

theorem beU32At_be32 (pre rest : Bytes) (x : UInt32) (pos : Nat) (h : pre.length = pos) :
    beU32At (pre ++ (be32 x ++ rest)) pos = x := by
  have hx : x.toNat < 256 ^ 4 := x.toNat_lt
  rw [beU32At, List.drop_left' h, be32, beNat_take_beBytes 4 _ _ hx, UInt32.ofNat_toNat]

theorem beU16At_beBytes (pre rest : Bytes) (n pos : Nat) (h : pre.length = pos)
    (hn : n < 256 ^ 2) : beU16At (pre ++ (beBytes 2 n ++ rest)) pos = n := by
  rw [beU16At, List.drop_left' h, beNat_take_beBytes 2 _ _ hn]

theorem u32_toNat_ofNat {n : Nat} (h : n < 2 ^ 32) : (UInt32.ofNat n).toNat = n := by
  rw [UInt32.toNat_ofNat', Nat.mod_eq_of_lt h]

/-! ## The connection-data layouts -/

/-- The oversize error that names the frame type. -/
def tooLarge (label : String) (len : Nat) : Rx11Error :=
  .protocol s!"{label} payload too large: {len} bytes (max {maxFrameSize})"

def tooShort (label : String) (len min : Nat) : Rx11Error :=
  .protocol s!"{label} payload too short: {len} bytes (min {min})"

def encodeConnSeqInto (buf : Bytes) (conn seq : UInt32) (data : Bytes) (label : String) :
    Result Unit × Bytes :=
  if data.length > maxFrameSize then (.error (tooLarge label data.length), buf)
  else (.ok (), buf ++ (be32 conn ++ (be32 seq ++ data)))

def decodeConnSeqParts (data : Bytes) (label : String) : Result (UInt32 × UInt32 × Bytes) :=
  if data.length < 8 then .error (tooShort label data.length 8)
  else .ok (beU32At data 0, beU32At data 4, data.drop 8)

/-- `encode_conn_seq_len_into`: `original_len` must fit a `u32`. -/
def encodeConnSeqLenInto (buf : Bytes) (conn seq : UInt32) (originalLen : Nat) (data : Bytes)
    (label : String) : Result Unit × Bytes :=
  if 2 ^ 32 ≤ originalLen then (.error (.protocol "original_len exceeds u32"), buf)
  else if data.length > maxFrameSize then (.error (tooLarge label data.length), buf)
  else (.ok (), buf ++ (be32 conn ++ (be32 seq ++ (beBytes 4 originalLen ++ data))))

def decodeConnSeqLenParts (data : Bytes) (label : String) :
    Result (UInt32 × UInt32 × Nat × Bytes) :=
  if data.length < 12 then .error (tooShort label data.length 12)
  else .ok (beU32At data 0, beU32At data 4, (beU32At data 8).toNat, data.drop 12)

theorem decodeConnSeqParts_layout (conn seq : UInt32) (data : Bytes) (label : String) :
    decodeConnSeqParts (be32 conn ++ (be32 seq ++ data)) label = .ok (conn, seq, data) := by
  have h0 := beU32At_be32 [] (be32 seq ++ data) conn 0 rfl
  have h4 := beU32At_be32 (be32 conn) data seq 4 (be32_length conn)
  have hd : (be32 conn ++ (be32 seq ++ data)).drop 8 = data := by
    rw [← List.append_assoc]
    exact List.drop_left' (by simp)
  have hlen : ¬ (be32 conn ++ (be32 seq ++ data)).length < 8 := by simp; omega
  rw [List.nil_append] at h0
  rw [decodeConnSeqParts, if_neg hlen, h0, h4, hd]

theorem decodeConnSeqLenParts_layout (conn seq : UInt32) (n : Nat) (data : Bytes) (label : String)
    (hn : n < 2 ^ 32) :
    decodeConnSeqLenParts (be32 conn ++ (be32 seq ++ (beBytes 4 n ++ data))) label =
      .ok (conn, seq, n, data) := by
  have hbe : beBytes 4 n = be32 (UInt32.ofNat n) := by rw [be32, u32_toNat_ofNat hn]
  rw [hbe]
  have h0 := beU32At_be32 [] (be32 seq ++ (be32 (UInt32.ofNat n) ++ data)) conn 0 rfl
  have h4 := beU32At_be32 (be32 conn) (be32 (UInt32.ofNat n) ++ data) seq 4 (be32_length conn)
  have h8 := beU32At_be32 (be32 conn ++ be32 seq) data (UInt32.ofNat n) 8 (by simp)
  rw [List.append_assoc] at h8
  have hd : (be32 conn ++ (be32 seq ++ (be32 (UInt32.ofNat n) ++ data))).drop 12 = data := by
    rw [← List.append_assoc, ← List.append_assoc]
    exact List.drop_left' (by simp)
  have hlen : ¬ (be32 conn ++ (be32 seq ++ (be32 (UInt32.ofNat n) ++ data))).length < 12 := by
    simp; omega
  rw [List.nil_append] at h0
  rw [decodeConnSeqLenParts, if_neg hlen, h0, h4, h8, hd, u32_toNat_ofNat hn]

/-! ## The incremental layout -/

/-- The chunk loop of `IncrementalStreamDataMessage::encode_payload_into`. A chunk whose offset or
    length does not fit a `u32` stops it with the earlier chunks already appended. -/
def encodeChunksInto : List IncrementalChunk → Bytes → Result Unit × Bytes
  | [], out => (.ok (), out)
  | c :: cs, out =>
    if 2 ^ 32 ≤ c.offset then (.error (.protocol "chunk offset exceeds u32"), out)
    else if 2 ^ 32 ≤ c.length then (.error (.protocol "chunk length exceeds u32"), out)
    else encodeChunksInto cs (out ++ (beBytes 4 c.offset ++ (beBytes 4 c.length ++ c.data)))

def encodeIncrementalInto (m : IncrementalStreamDataMessage) (out : Bytes) :
    Result Unit × Bytes :=
  if 2 ^ 32 ≤ m.totalLen then (.error (.protocol "total_len exceeds u32"), out)
  else if 2 ^ 16 ≤ m.chunks.length then (.error (.protocol "too many chunks"), out)
  else encodeChunksInto m.chunks
    (out ++ (be32 m.connectionId.raw ++ (be32 m.sequenceId ++ (be32 m.baseSequenceId ++
      (beBytes 4 m.totalLen ++ beBytes 2 m.chunks.length)))))

/-- The chunk loop of `decode_incremental_parts`: each chunk's `(offset, length, position)`. -/
def decodeChunkParts (data : Bytes) : Nat → Nat → Result (List (Nat × Nat × Nat))
  | 0, _ => .ok []
  | n + 1, pos =>
    if data.length < pos + 8 then
      .error (.protocol "Invalid IncrementalStreamData chunk header")
    else
      let offset := (beU32At data pos).toNat
      let length := (beU32At data (pos + 4)).toNat
      if data.length < pos + 8 + length then
        .error (.protocol "Invalid IncrementalStreamData chunk data")
      else do
        let rest ← decodeChunkParts data n (pos + 8 + length)
        .ok ((offset, length, pos + 8) :: rest)

/-- `decode_incremental_parts`: the header fields and the chunk positions. -/
def decodeIncrementalParts (data : Bytes) :
    Result ((UInt32 × UInt32 × UInt32 × Nat) × List (Nat × Nat × Nat)) :=
  if data.length < 18 then .error (tooShort "IncrementalStreamData" data.length 18)
  else do
    let chunks ← decodeChunkParts data (beU16At data 16) 18
    .ok ((beU32At data 0, beU32At data 4, beU32At data 8, (beU32At data 12).toNat), chunks)

def buildIncremental (fields : UInt32 × UInt32 × UInt32 × Nat) (chunks : List IncrementalChunk) :
    IncrementalStreamDataMessage where
  connectionId := ⟨fields.1⟩
  sequenceId := fields.2.1
  baseSequenceId := fields.2.2.1
  totalLen := fields.2.2.2
  chunks := chunks

/-- The chunk at a decoded position: `&data[pos..pos + length]`. -/
def chunkAt (data : Bytes) (part : Nat × Nat × Nat) : IncrementalChunk where
  offset := part.1
  length := part.2.1
  data := (data.drop part.2.2).take part.2.1

/-! ## The decoders -/

def StreamDataMessage.decodePayload (data : Bytes) : Result StreamDataMessage := do
  let (conn, sequenceId, payload) ← decodeConnSeqParts data "StreamData"
  .ok ⟨⟨conn⟩, sequenceId, payload⟩

/-- The owned decoders take the fields from the parts and slice the data out of the frame. -/
def StreamDataMessage.decodePayloadOwned (data : Bytes) : Result StreamDataMessage := do
  let (conn, sequenceId, _) ← decodeConnSeqParts data "StreamData"
  .ok ⟨⟨conn⟩, sequenceId, data.drop 8⟩

def CompressedStreamDataMessage.decodePayload (data : Bytes) :
    Result CompressedStreamDataMessage := do
  let (conn, sequenceId, originalLen, payload) ← decodeConnSeqLenParts data "CompressedStreamData"
  .ok ⟨⟨conn⟩, sequenceId, originalLen, payload⟩

def CompressedStreamDataMessage.decodePayloadOwned (data : Bytes) :
    Result CompressedStreamDataMessage := do
  let (conn, sequenceId, originalLen, _) ← decodeConnSeqLenParts data "CompressedStreamData"
  .ok ⟨⟨conn⟩, sequenceId, originalLen, data.drop 12⟩

def CompressedIncrementalStreamDataMessage.decodePayload (data : Bytes) :
    Result CompressedIncrementalStreamDataMessage := do
  let (conn, sequenceId, originalLen, payload) ←
    decodeConnSeqLenParts data "CompressedIncrementalStreamData"
  .ok ⟨⟨conn⟩, sequenceId, originalLen, payload⟩

def CompressedIncrementalStreamDataMessage.decodePayloadOwned (data : Bytes) :
    Result CompressedIncrementalStreamDataMessage := do
  let (conn, sequenceId, originalLen, _) ←
    decodeConnSeqLenParts data "CompressedIncrementalStreamData"
  .ok ⟨⟨conn⟩, sequenceId, originalLen, data.drop 12⟩

def IncrementalStreamDataMessage.decodePayload (data : Bytes) :
    Result IncrementalStreamDataMessage := do
  let (fields, parts) ← decodeIncrementalParts data
  .ok (buildIncremental fields (parts.map (chunkAt data)))

/-- The owned twin: each chunk is `data.slice(pos..pos + length)`. -/
def IncrementalStreamDataMessage.decodePayloadOwned (data : Bytes) :
    Result IncrementalStreamDataMessage := do
  let (fields, parts) ← decodeIncrementalParts data
  .ok (buildIncremental fields (parts.map fun part =>
    ⟨part.1, part.2.1, (data.take (part.2.2 + part.2.1)).drop part.2.2⟩))

theorem decodeConnSeqParts_rest {data d : Bytes} {label : String} {conn seq : UInt32}
    (h : decodeConnSeqParts data label = .ok (conn, seq, d)) : d = data.drop 8 := by
  unfold decodeConnSeqParts at h
  split at h
  · contradiction
  · simp only [Except.ok.injEq, Prod.mk.injEq] at h
    exact h.2.2.symm

theorem decodeConnSeqLenParts_rest {data d : Bytes} {label : String} {conn seq : UInt32} {n : Nat}
    (h : decodeConnSeqLenParts data label = .ok (conn, seq, n, d)) : d = data.drop 12 := by
  unfold decodeConnSeqLenParts at h
  split at h
  · contradiction
  · simp only [Except.ok.injEq, Prod.mk.injEq] at h
    exact h.2.2.2.symm

theorem StreamDataMessage.decodePayloadOwned_eq (data : Bytes) :
    StreamDataMessage.decodePayloadOwned data = StreamDataMessage.decodePayload data := by
  unfold decodePayloadOwned decodePayload
  cases h : decodeConnSeqParts data "StreamData" with
  | error e => rfl
  | ok v => rw [← decodeConnSeqParts_rest h]; rfl

theorem CompressedStreamDataMessage.decodePayloadOwned_eq (data : Bytes) :
    CompressedStreamDataMessage.decodePayloadOwned data =
      CompressedStreamDataMessage.decodePayload data := by
  unfold decodePayloadOwned decodePayload
  cases h : decodeConnSeqLenParts data "CompressedStreamData" with
  | error e => rfl
  | ok v => rw [← decodeConnSeqLenParts_rest h]; rfl

theorem CompressedIncrementalStreamDataMessage.decodePayloadOwned_eq (data : Bytes) :
    CompressedIncrementalStreamDataMessage.decodePayloadOwned data =
      CompressedIncrementalStreamDataMessage.decodePayload data := by
  unfold decodePayloadOwned decodePayload
  cases h : decodeConnSeqLenParts data "CompressedIncrementalStreamData" with
  | error e => rfl
  | ok v => rw [← decodeConnSeqLenParts_rest h]; rfl

theorem IncrementalStreamDataMessage.decodePayloadOwned_eq (data : Bytes) :
    IncrementalStreamDataMessage.decodePayloadOwned data =
      IncrementalStreamDataMessage.decodePayload data := by
  have hslice : (fun part : Nat × Nat × Nat =>
      IncrementalChunk.mk part.1 part.2.1 ((data.take (part.2.2 + part.2.1)).drop part.2.2)) =
        chunkAt data := by
    funext part
    rw [chunkAt, List.drop_take, Nat.add_sub_cancel_left]
  unfold decodePayloadOwned decodePayload
  rw [hslice]

/-! ## Layout of the chunks -/

/-- The bytes of one encoded chunk. -/
def chunkBytes (c : IncrementalChunk) : Bytes :=
  beBytes 4 c.offset ++ (beBytes 4 c.length ++ c.data)

/-- The declared length of a chunk is that of its data. -/
def ChunkSized (c : IncrementalChunk) : Prop := c.length = c.data.length

instance : DecidablePred ChunkSized := fun _ => inferInstanceAs (Decidable (_ = _))

theorem encodeChunksInto_ok {cs : List IncrementalChunk} {out out' : Bytes}
    (h : encodeChunksInto cs out = (.ok (), out')) :
    out' = out ++ (cs.map chunkBytes).flatten ∧
      ∀ c ∈ cs, c.offset < 2 ^ 32 ∧ c.length < 2 ^ 32 := by
  induction cs generalizing out with
  | nil =>
    simp only [encodeChunksInto, Prod.mk.injEq, true_and] at h
    subst h
    simp
  | cons c cs ih =>
    unfold encodeChunksInto at h
    by_cases ho : 2 ^ 32 ≤ c.offset
    · rw [if_pos ho] at h
      simp at h
    · by_cases hl : 2 ^ 32 ≤ c.length
      · rw [if_neg ho, if_pos hl] at h
        simp at h
      · rw [if_neg ho, if_neg hl] at h
        obtain ⟨hout, hcs⟩ := ih h
        refine ⟨?_, ?_⟩
        · rw [hout, List.map_cons, List.flatten_cons, List.append_assoc]
          rfl
        · intro d hd
          rcases List.mem_cons.mp hd with rfl | hd
          · exact ⟨by omega, by omega⟩
          · exact hcs d hd

/-- Numbers that fit do not stop the chunk loop. -/
theorem encodeChunksInto_of_fits {cs : List IncrementalChunk} (out : Bytes)
    (h : ∀ c ∈ cs, c.offset < 2 ^ 32 ∧ c.length < 2 ^ 32) :
    ∃ out', encodeChunksInto cs out = (.ok (), out') := by
  induction cs generalizing out with
  | nil => exact ⟨out, rfl⟩
  | cons c cs ih =>
    obtain ⟨hoff, hlen⟩ := h c List.mem_cons_self
    rw [encodeChunksInto, if_neg (Nat.not_le.mpr hoff), if_neg (Nat.not_le.mpr hlen)]
    exact ih _ fun d hd => h d (List.mem_cons_of_mem c hd)

/-- The chunk loop of the decoder reads back the chunks it is pointed at, and each chunk's bytes
    sit at the position it reports. -/
theorem decodeChunkParts_layout (cs : List IncrementalChunk) (pre tail : Bytes)
    (hcs : ∀ c ∈ cs, c.offset < 2 ^ 32 ∧ c.length < 2 ^ 32 ∧ ChunkSized c) :
    ∃ parts, decodeChunkParts (pre ++ ((cs.map chunkBytes).flatten ++ tail)) cs.length pre.length =
        .ok parts ∧
      parts.map (chunkAt (pre ++ ((cs.map chunkBytes).flatten ++ tail))) = cs := by
  induction cs generalizing pre with
  | nil => exact ⟨[], rfl, rfl⟩
  | cons c cs ih =>
    obtain ⟨ho, hl, hs⟩ := hcs c (List.mem_cons_self)
    obtain ⟨parts, hp, hm⟩ := ih (pre ++ chunkBytes c) fun d hd => hcs d (List.mem_cons_of_mem _ hd)
    -- both sides see the same buffer, split before or after the first chunk
    have hbuf : pre ++ (((c :: cs).map chunkBytes).flatten ++ tail) =
        (pre ++ chunkBytes c) ++ ((cs.map chunkBytes).flatten ++ tail) := by
      simp [List.append_assoc]
    have hlen : (pre ++ chunkBytes c).length = pre.length + 8 + c.length := by
      unfold ChunkSized at hs
      simp [chunkBytes, hs]; omega
    rw [hbuf]
    rw [hlen] at hp
    generalize hrest : (cs.map chunkBytes).flatten ++ tail = rest at hp hm ⊢
    have e1 : (pre ++ chunkBytes c) ++ rest =
        pre ++ (be32 (UInt32.ofNat c.offset) ++
          (beBytes 4 c.length ++ (c.data ++ rest))) := by
      simp [chunkBytes, be32, u32_toNat_ofNat ho, List.append_assoc]
    have e2 : (pre ++ chunkBytes c) ++ rest =
        (pre ++ beBytes 4 c.offset) ++ (be32 (UInt32.ofNat c.length) ++ (c.data ++ rest)) := by
      simp [chunkBytes, be32, u32_toNat_ofNat hl, List.append_assoc]
    have e3 : (pre ++ chunkBytes c) ++ rest =
        (pre ++ beBytes 4 c.offset ++ beBytes 4 c.length) ++ (c.data ++ rest) := by
      simp [chunkBytes, List.append_assoc]
    have hoff : (beU32At ((pre ++ chunkBytes c) ++ rest) pre.length).toNat = c.offset := by
      rw [e1, beU32At_be32 _ _ _ _ rfl, u32_toNat_ofNat ho]
    have hlg : (beU32At ((pre ++ chunkBytes c) ++ rest) (pre.length + 4)).toNat = c.length := by
      rw [e2, beU32At_be32 _ _ _ _ (by simp), u32_toNat_ofNat hl]
    have hdata : (((pre ++ chunkBytes c) ++ rest).drop (pre.length + 8)).take c.length = c.data := by
      rw [e3, List.drop_left' (by simp), List.take_left' hs.symm]
    have htot : ((pre ++ chunkBytes c) ++ rest).length =
        pre.length + 8 + c.length + rest.length := by
      rw [List.length_append, hlen]
    refine ⟨(c.offset, c.length, pre.length + 8) :: parts, ?_, ?_⟩
    · simp only [List.length_cons, decodeChunkParts]
      rw [if_neg (by omega), hlg, if_neg (by omega), hoff, hp]
      rfl
    · rw [List.map_cons, hm]
      simp only [chunkAt, hdata]

/-! ## The four binary messages -/

/-- The `binary` block of `define_frame_types!`. -/
inductive BinaryMessage where
  | streamData (m : StreamDataMessage)
  | compressedStreamData (m : CompressedStreamDataMessage)
  | incrementalStreamData (m : IncrementalStreamDataMessage)
  | compressedIncrementalStreamData (m : CompressedIncrementalStreamDataMessage)
  deriving DecidableEq, Repr

namespace BinaryMessage

def msgType : BinaryMessage → MessageType
  | streamData _ => .streamData
  | compressedStreamData _ => .compressedStreamData
  | incrementalStreamData _ => .incrementalStreamData
  | compressedIncrementalStreamData _ => .compressedIncrementalStreamData

/-- The frame's name in error texts (`stringify!($BVar)`). -/
def label : BinaryMessage → String
  | streamData _ => "StreamData"
  | compressedStreamData _ => "CompressedStreamData"
  | incrementalStreamData _ => "IncrementalStreamData"
  | compressedIncrementalStreamData _ => "CompressedIncrementalStreamData"

def connectionId : BinaryMessage → ConnectionId
  | streamData m => m.connectionId
  | compressedStreamData m => m.connectionId
  | incrementalStreamData m => m.connectionId
  | compressedIncrementalStreamData m => m.connectionId

def payloadLen : BinaryMessage → Nat
  | streamData m => 4 + 4 + m.data.length
  | compressedStreamData m => 4 + 4 + 4 + m.data.length
  | incrementalStreamData m => 4 + 4 + 4 + 4 + 2 + (m.chunks.map fun c => 8 + c.data.length).sum
  | compressedIncrementalStreamData m => 4 + 4 + 4 + m.data.length

def encodePayloadInto (b : BinaryMessage) (out : Bytes) : Result Unit × Bytes :=
  match b with
  | streamData m => encodeConnSeqInto out m.connectionId.raw m.sequenceId m.data b.label
  | compressedStreamData m =>
    encodeConnSeqLenInto out m.connectionId.raw m.sequenceId m.originalLen m.data b.label
  | incrementalStreamData m => encodeIncrementalInto m out
  | compressedIncrementalStreamData m =>
    encodeConnSeqLenInto out m.connectionId.raw m.sequenceId m.originalLen m.data b.label

/-! ## Layout and round trip -/

/-- The payload bytes of a message, in closed form. -/
def payload : BinaryMessage → Bytes
  | streamData m => be32 m.connectionId.raw ++ (be32 m.sequenceId ++ m.data)
  | compressedStreamData m =>
    be32 m.connectionId.raw ++ (be32 m.sequenceId ++ (beBytes 4 m.originalLen ++ m.data))
  | incrementalStreamData m =>
    (be32 m.connectionId.raw ++ (be32 m.sequenceId ++ (be32 m.baseSequenceId ++
      (beBytes 4 m.totalLen ++ beBytes 2 m.chunks.length)))) ++ (m.chunks.map chunkBytes).flatten
  | compressedIncrementalStreamData m =>
    be32 m.connectionId.raw ++ (be32 m.sequenceId ++ (beBytes 4 m.originalLen ++ m.data))

/-- Every field fits its width on the wire. -/
def Fits : BinaryMessage → Prop
  | streamData _ => True
  | compressedStreamData m => m.originalLen < 2 ^ 32
  | incrementalStreamData m => m.totalLen < 2 ^ 32 ∧ m.chunks.length < 2 ^ 16 ∧
      ∀ c ∈ m.chunks, c.offset < 2 ^ 32 ∧ c.length < 2 ^ 32
  | compressedIncrementalStreamData m => m.originalLen < 2 ^ 32

/-- Every chunk declares the length of its own data. -/
def ChunksSized : BinaryMessage → Prop
  | incrementalStreamData m => ∀ c ∈ m.chunks, ChunkSized c
  | _ => True

instance : DecidablePred ChunksSized
  | incrementalStreamData m => inferInstanceAs (Decidable (∀ c ∈ m.chunks, ChunkSized c))
  | streamData _ => isTrue trivial
  | compressedStreamData _ => isTrue trivial
  | compressedIncrementalStreamData _ => isTrue trivial

theorem encodeConnSeqLenInto_ok {buf out : Bytes} {conn seq : UInt32} {n : Nat} {data : Bytes}
    {label : String} (h : encodeConnSeqLenInto buf conn seq n data label = (.ok (), out)) :
    out = buf ++ (be32 conn ++ (be32 seq ++ (beBytes 4 n ++ data))) ∧ n < 2 ^ 32 := by
  unfold encodeConnSeqLenInto at h
  by_cases hn : 2 ^ 32 ≤ n
  · rw [if_pos hn] at h
    simp at h
  · by_cases hd : data.length > maxFrameSize
    · rw [if_neg hn, if_pos hd] at h
      simp at h
    · rw [if_neg hn, if_neg hd, Prod.mk.injEq] at h
      exact ⟨h.2.symm, by omega⟩

/-- A successful encode appends exactly the payload, and every field fitted. -/
theorem encodePayloadInto_ok {b : BinaryMessage} {out out' : Bytes}
    (h : b.encodePayloadInto out = (.ok (), out')) : out' = out ++ b.payload ∧ b.Fits := by
  cases b with
  | streamData m =>
    simp only [encodePayloadInto] at h
    unfold encodeConnSeqInto at h
    split at h
    · cases h
    · rw [Prod.mk.injEq] at h
      exact ⟨h.2.symm, trivial⟩
  | compressedStreamData m => exact encodeConnSeqLenInto_ok h
  | incrementalStreamData m =>
    simp only [encodePayloadInto] at h
    unfold encodeIncrementalInto at h
    by_cases ht : 2 ^ 32 ≤ m.totalLen
    · rw [if_pos ht] at h
      simp at h
    · by_cases hc : 2 ^ 16 ≤ m.chunks.length
      · rw [if_neg ht, if_pos hc] at h
        cases h
      · rw [if_neg ht, if_neg hc] at h
        obtain ⟨hout, hcs⟩ := encodeChunksInto_ok h
        refine ⟨?_, by omega, by omega, hcs⟩
        rw [hout, payload, List.append_assoc]
  | compressedIncrementalStreamData m => exact encodeConnSeqLenInto_ok h

theorem encodeConnSeqLenInto_of_fits {out : Bytes} {conn seq : UInt32} {n : Nat} {data : Bytes}
    {label : String} (hn : n < 2 ^ 32) (hd : data.length ≤ maxFrameSize) :
    ∃ out', encodeConnSeqLenInto out conn seq n data label = (.ok (), out') := by
  unfold encodeConnSeqLenInto
  rw [if_neg (Nat.not_le.mpr hn), if_neg (Nat.not_lt.mpr hd)]
  exact ⟨_, rfl⟩

/-- A diff whose fields fit encodes, whatever its size: the limit is the framer's. -/
theorem encodeIncrementalInto_of_fits {m : IncrementalStreamDataMessage}
    (hf : (incrementalStreamData m).Fits) (out : Bytes) :
    ∃ out', encodeIncrementalInto m out = (.ok (), out') := by
  obtain ⟨htotal, hcount, hcs⟩ := hf
  unfold encodeIncrementalInto
  rw [if_neg (Nat.not_le.mpr htotal), if_neg (Nat.not_le.mpr hcount)]
  exact encodeChunksInto_of_fits _ hcs

/-- A message whose fields fit encodes, when it is not above the size limit. -/
theorem encodePayloadInto_of_fits {b : BinaryMessage} (hf : b.Fits) (hlen : b.payloadLen ≤ maxFrameSize)
    (out : Bytes) : ∃ out', b.encodePayloadInto out = (.ok (), out') := by
  cases b with
  | streamData m =>
    have hd : ¬ m.data.length > maxFrameSize := by
      simp only [payloadLen] at hlen
      omega
    simp only [encodePayloadInto]
    unfold encodeConnSeqInto
    rw [if_neg hd]
    exact ⟨_, rfl⟩
  | compressedStreamData m =>
    simp only [payloadLen] at hlen
    exact encodeConnSeqLenInto_of_fits hf (by omega)
  | incrementalStreamData m => exact encodeIncrementalInto_of_fits hf out
  | compressedIncrementalStreamData m =>
    simp only [payloadLen] at hlen
    exact encodeConnSeqLenInto_of_fits hf (by omega)

theorem decodePayload_incremental (m : IncrementalStreamDataMessage)
    (hf : (incrementalStreamData m).Fits) (hs : (incrementalStreamData m).ChunksSized) :
    IncrementalStreamDataMessage.decodePayload (incrementalStreamData m).payload = .ok m := by
  obtain ⟨ht, hc, hcs⟩ := hf
  generalize hpre : be32 m.connectionId.raw ++ (be32 m.sequenceId ++ (be32 m.baseSequenceId ++
      (beBytes 4 m.totalLen ++ beBytes 2 m.chunks.length))) = pre
  have hplen : pre.length = 18 := by rw [← hpre]; simp
  have hpay : (incrementalStreamData m).payload =
      pre ++ ((m.chunks.map chunkBytes).flatten ++ []) := by
    rw [payload, hpre, List.append_nil]
  obtain ⟨parts, hp, hm⟩ := decodeChunkParts_layout m.chunks pre []
    fun c h => ⟨(hcs c h).1, (hcs c h).2, hs c h⟩
  rw [← hpay] at hp hm
  rw [hplen] at hp
  have hlay : (incrementalStreamData m).payload = be32 m.connectionId.raw ++
      (be32 m.sequenceId ++ (be32 m.baseSequenceId ++ (be32 (UInt32.ofNat m.totalLen) ++
        (beBytes 2 m.chunks.length ++ (m.chunks.map chunkBytes).flatten)))) := by
    simp [payload, be32, u32_toNat_ofNat ht, List.append_assoc]
  have hlen : ¬ (incrementalStreamData m).payload.length < 18 := by
    rw [hpay, List.length_append, hplen]; omega
  have h0 : beU32At (incrementalStreamData m).payload 0 = m.connectionId.raw := by
    rw [hlay]; exact beU32At_be32 [] _ _ 0 rfl
  have h4 : beU32At (incrementalStreamData m).payload 4 = m.sequenceId := by
    rw [hlay]; exact beU32At_be32 (be32 _) _ _ 4 (by simp)
  have h8 : beU32At (incrementalStreamData m).payload 8 = m.baseSequenceId := by
    rw [hlay, ← List.append_assoc]
    exact beU32At_be32 _ _ _ 8 (by simp)
  have h12 : (beU32At (incrementalStreamData m).payload 12).toNat = m.totalLen := by
    rw [hlay, ← List.append_assoc, ← List.append_assoc, beU32At_be32 _ _ _ 12 (by simp),
      u32_toNat_ofNat ht]
  have h16 : beU16At (incrementalStreamData m).payload 16 = m.chunks.length := by
    rw [hlay, ← List.append_assoc, ← List.append_assoc, ← List.append_assoc]
    exact beU16At_beBytes _ _ _ 16 (by simp) (by omega)
  unfold IncrementalStreamDataMessage.decodePayload decodeIncrementalParts
  rw [if_neg hlen, h0, h4, h8, h12, h16, hp]
  simp only [bind, Except.bind, hm, buildIncremental]

/-- The predicted payload size is the real one. -/
theorem payload_length (b : BinaryMessage) : b.payload.length = b.payloadLen := by
  cases b with
  | streamData m => simp [payload, payloadLen]; omega
  | compressedStreamData m => simp [payload, payloadLen]; omega
  | compressedIncrementalStreamData m => simp [payload, payloadLen]; omega
  | incrementalStreamData m =>
    have hchunk : (List.length ∘ chunkBytes) = fun c : IncrementalChunk => 8 + c.data.length := by
      funext c
      simp [chunkBytes]
      omega
    simp [payload, payloadLen, List.length_flatten, List.map_map, hchunk]
    omega

theorem decodePayload_streamData (m : StreamDataMessage) :
    StreamDataMessage.decodePayload (streamData m).payload = .ok m := by
  simp only [StreamDataMessage.decodePayload, payload, decodeConnSeqParts_layout, bind,
    Except.bind]

theorem decodePayload_compressed (m : CompressedStreamDataMessage)
    (hf : (compressedStreamData m).Fits) :
    CompressedStreamDataMessage.decodePayload (compressedStreamData m).payload = .ok m := by
  simp only [CompressedStreamDataMessage.decodePayload, payload, bind, Except.bind,
    decodeConnSeqLenParts_layout _ _ _ _ _ hf]

theorem decodePayload_compressedIncremental (m : CompressedIncrementalStreamDataMessage)
    (hf : (compressedIncrementalStreamData m).Fits) :
    CompressedIncrementalStreamDataMessage.decodePayload
      (compressedIncrementalStreamData m).payload = .ok m := by
  simp only [CompressedIncrementalStreamDataMessage.decodePayload, payload, bind, Except.bind,
    decodeConnSeqLenParts_layout _ _ _ _ _ hf]

end BinaryMessage

/-- `IncrementalStreamDataMessage::encode_payload`: a buffer of its own, with the size check the
    framer otherwise makes. -/
def IncrementalStreamDataMessage.encodePayload (m : IncrementalStreamDataMessage) : Result Bytes :=
  match encodeIncrementalInto m [] with
  | (.error e, _) => .error e
  | (.ok (), buf) =>
    if buf.length > maxFrameSize then .error (tooLarge "IncrementalStreamData" buf.length)
    else .ok buf

end RemoteX11.Protocol
