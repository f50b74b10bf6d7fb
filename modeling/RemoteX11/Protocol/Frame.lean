/-
  The `Frame` enum and its wire form `MAGIC(4) | version(1) | type(2) | len(4) | payload`
  (`protocol/frame.rs`).

  `encodeInto` appends to a shared buffer and back-patches the length; `encodeInto_eq` says that it
  appends `frameBytes` of the payload, or fails and leaves the buffer as it was.
  `peekFrame_frameBytes` says that the header of such bytes is recognised whatever follows them,
  and `decodePayloadOwned_wirePayload` that the payload decodes to the frame it was made from.

  `serde_json` is the parameter `Serde`; what the proofs need of it is `Serde.RoundTrips`.
-/
import RemoteX11.Protocol.Binary

namespace RemoteX11.Protocol

open RemoteX11.Lib

/-- `serde_json::to_vec` and `serde_json::from_slice` on the JSON messages. The tag selects the
    message type that is parsed; the error is its text. -/
structure Serde where
  toVec : JsonMessage → Except String Bytes
  fromSlice : MessageType → Bytes → Except String JsonMessage

/-- What was serialized parses back to the same message. -/
def Serde.RoundTrips (S : Serde) : Prop :=
  ∀ m b, S.toVec m = .ok b → S.fromSlice m.msgType b = .ok m

inductive Frame where
  | json (m : JsonMessage)
  | binary (m : BinaryMessage)
  | heartbeat
  | heartbeatAck
  deriving DecidableEq, Repr

namespace Frame

def msgType : Frame → MessageType
  | json m => m.msgType
  | binary m => m.msgType
  | heartbeat => .heartbeat
  | heartbeatAck => .heartbeatAck

/-- The multiplexed channel a frame belongs to, when it names one. -/
def connectionId : Frame → Option ConnectionId
  | binary m => some m.connectionId
  | json (.channelOpen m) => some m.connectionId
  | json (.channelClose m) => some m.connectionId
  | json (.streamResyncRequest m) => some m.connectionId
  | json (.flowControl m) => m.connectionId
  | _ => none

/-- Exact for binary payloads, optimistic for JSON. -/
def payloadLenHint : Frame → Nat
  | json _ => 128
  | binary m => m.payloadLen
  | heartbeat => 0
  | heartbeatAck => 0

end Frame

/-! ## The header -/

def magicBytes : Bytes := [0x52, 0x58, 0x31, 0x31]

def wireVersion : UInt8 := 1

def frameHeaderSize : Nat := 11

/-- `encoded_size`: what the outbound queue charges for a frame. -/
def Frame.encodedSize (f : Frame) : Nat := frameHeaderSize + f.payloadLenHint

/-- `begin_header`: the header with a zero length, and the offset it starts at. -/
def beginHeader (out : Bytes) (msgType : Nat) : Bytes × Nat :=
  (out ++ (magicBytes ++ ([wireVersion] ++ (beBytes 2 msgType ++ beBytes 4 0))), out.length)

/-- `finish_header`: back-patch the payload length (`as u32`) of the frame that starts at `pos`. -/
def finishHeader (out : Bytes) (pos : Nat) : Bytes :=
  overwrite out (pos + 7) (beBytes 4 (out.length - pos - frameHeaderSize))

/-- `finish_header_checked`: the length limit, with the frame truncated away on overflow. -/
def finishHeaderChecked (out : Bytes) (pos : Nat) (label : String) : Result Unit × Bytes :=
  let payloadLen := out.length - pos - frameHeaderSize
  if payloadLen > maxFrameSize then (.error (tooLarge label payloadLen), out.take pos)
  else (.ok (), finishHeader out pos)

/-- `encode_into`: append `MAGIC|version|type|len|payload`. -/
def Frame.encodeInto (S : Serde) (f : Frame) (out : Bytes) : Result Unit × Bytes :=
  match f with
  | .json m =>
    match S.toVec m with
    | .error e => (.error (.protocol e), out)
    | .ok payload =>
      if payload.length > maxFrameSize then
        let len := payload.length
        (.error (.protocol s!"Frame payload too large: {len} bytes (max {maxFrameSize})"), out)
      else
        let (buf, pos) := beginHeader out m.msgType.tag
        (.ok (), finishHeader (buf ++ payload) pos)
  | .binary m =>
    let (buf, pos) := beginHeader out m.msgType.tag
    match m.encodePayloadInto buf with
    | (.error e, buf) => (.error e, buf.take pos)
    | (.ok (), buf) =>
      match finishHeaderChecked buf pos m.label with
      | (.error e, buf) => (.error e, buf.take pos)
      | (.ok (), buf) => (.ok (), buf)
  | .heartbeat =>
    let (buf, pos) := beginHeader out MessageType.heartbeat.tag
    (.ok (), finishHeader buf pos)
  | .heartbeatAck =>
    let (buf, pos) := beginHeader out MessageType.heartbeatAck.tag
    (.ok (), finishHeader buf pos)

/-- `encode`: a buffer of its own. -/
def Frame.encode (S : Serde) (f : Frame) : Result Bytes :=
  match f.encodeInto S [] with
  | (.error e, _) => .error e
  | (.ok (), buf) => .ok buf

/-- `peek_frame`: parse and validate a header without consuming anything. `none` means that the
    header is not complete yet. -/
def peekFrame (data : Bytes) : Result (Option (MessageType × Nat)) :=
  if data.length < frameHeaderSize then .ok none
  else if data.take 4 ≠ magicBytes then .error (.protocol "Invalid magic bytes")
  else if data.getD 4 0 ≠ wireVersion then
    let version := (data.getD 4 0).toNat
    .error (.protocol s!"Unsupported protocol version: {version} (expected {wireVersion.toNat})")
  else
    let payloadLen := (beU32At data 7).toNat
    if payloadLen > maxFrameSize then
      .error (.protocol s!"Frame payload too large: {payloadLen} bytes (max {maxFrameSize})")
    else do
      let msgType ← MessageType.tryFrom (beU16At data 5)
      .ok (some (msgType, frameHeaderSize + payloadLen))

/-! ## Decoding a payload -/

/-- The JSON arm of `decode_payload`: parse, then the kind's own validation. -/
def decodeJson (S : Serde) (t : MessageType) (payload : Bytes) : Result Frame :=
  match S.fromSlice t payload with
  | .error e => .error (.protocol e)
  | .ok m => do
    m.validate
    .ok (.json m)

/-- The empty arm of `decode_payload`. -/
def decodeEmpty (f : Frame) (name : String) (payload : Bytes) : Result Frame :=
  if payload.isEmpty then .ok f
  else .error (.protocol (name ++ " frame must have empty payload"))

/-- `decode_payload`. -/
def decodePayload (S : Serde) (t : MessageType) (payload : Bytes) : Result Frame :=
  match t with
  | .streamData => (StreamDataMessage.decodePayload payload).map (.binary ∘ .streamData)
  | .compressedStreamData =>
    (CompressedStreamDataMessage.decodePayload payload).map (.binary ∘ .compressedStreamData)
  | .incrementalStreamData =>
    (IncrementalStreamDataMessage.decodePayload payload).map (.binary ∘ .incrementalStreamData)
  | .compressedIncrementalStreamData =>
    (CompressedIncrementalStreamDataMessage.decodePayload payload).map
      (.binary ∘ .compressedIncrementalStreamData)
  | .heartbeat => decodeEmpty .heartbeat "Heartbeat" payload
  | .heartbeatAck => decodeEmpty .heartbeatAck "HeartbeatAck" payload
  | t => decodeJson S t payload

/-- `decode_payload_owned`, which `decode_frame_owned` forwards to. -/
def decodePayloadOwned (S : Serde) (t : MessageType) (payload : Bytes) : Result Frame :=
  match t with
  | .streamData => (StreamDataMessage.decodePayloadOwned payload).map (.binary ∘ .streamData)
  | .compressedStreamData =>
    (CompressedStreamDataMessage.decodePayloadOwned payload).map (.binary ∘ .compressedStreamData)
  | .incrementalStreamData =>
    (IncrementalStreamDataMessage.decodePayloadOwned payload).map (.binary ∘ .incrementalStreamData)
  | .compressedIncrementalStreamData =>
    (CompressedIncrementalStreamDataMessage.decodePayloadOwned payload).map
      (.binary ∘ .compressedIncrementalStreamData)
  | t => decodePayload S t payload

/-- `decode_frame`: the frame at the head of `data` and its size, when it is complete. -/
def decodeFrame (S : Serde) (data : Bytes) : Result (Option (Frame × Nat)) := do
  match ← peekFrame data with
  | none => .ok none
  | some (msgType, total) =>
    if data.length < total then .ok none
    else
      let frame ← decodePayload S msgType ((data.drop frameHeaderSize).take (total - frameHeaderSize))
      .ok (some (frame, total))

theorem decodePayloadOwned_eq (S : Serde) (t : MessageType) (payload : Bytes) :
    decodePayloadOwned S t payload = decodePayload S t payload := by
  cases t
  case streamData =>
    simp only [decodePayloadOwned, decodePayload, StreamDataMessage.decodePayloadOwned_eq]
  case compressedStreamData =>
    simp only [decodePayloadOwned, decodePayload, CompressedStreamDataMessage.decodePayloadOwned_eq]
  case incrementalStreamData =>
    simp only [decodePayloadOwned, decodePayload, IncrementalStreamDataMessage.decodePayloadOwned_eq]
  case compressedIncrementalStreamData =>
    simp only [decodePayloadOwned, decodePayload,
      CompressedIncrementalStreamDataMessage.decodePayloadOwned_eq]
  all_goals rfl

/-! ## What an encode appends -/

/-- The wire form of a payload of type `t`. -/
def frameBytes (t : MessageType) (p : Bytes) : Bytes :=
  magicBytes ++ ([wireVersion] ++ (beBytes 2 t.tag ++ (beBytes 4 p.length ++ p)))

@[simp] theorem frameBytes_length (t : MessageType) (p : Bytes) :
    (frameBytes t p).length = frameHeaderSize + p.length := by
  simp [frameBytes, magicBytes, frameHeaderSize]; omega

theorem frameBytes_drop (t : MessageType) (p : Bytes) :
    (frameBytes t p).drop frameHeaderSize = p := by
  unfold frameBytes
  rw [← List.append_assoc, ← List.append_assoc, ← List.append_assoc]
  exact List.drop_left' (by simp [magicBytes, frameHeaderSize])

/-- Back-patching the length of a frame that was begun at the end of `out`. -/
theorem finishHeader_beginHeader (out p : Bytes) (t : MessageType) :
    finishHeader ((beginHeader out t.tag).1 ++ p) out.length = out ++ frameBytes t p := by
  have hbuf : (beginHeader out t.tag).1 ++ p =
      (out ++ (magicBytes ++ ([wireVersion] ++ beBytes 2 t.tag))) ++ (beBytes 4 0 ++ p) := by
    simp [beginHeader, List.append_assoc]
  have hpre : (out ++ (magicBytes ++ ([wireVersion] ++ beBytes 2 t.tag))).length =
      out.length + 7 := by
    simp [magicBytes]
  have hlen : ((beginHeader out t.tag).1 ++ p).length - out.length - frameHeaderSize =
      p.length := by
    rw [hbuf, List.length_append, hpre]
    simp [frameHeaderSize]; omega
  unfold finishHeader
  rw [hlen, hbuf]
  unfold overwrite
  rw [List.take_left' hpre, beBytes_length, List.drop_append, hpre,
    List.drop_eq_nil_of_le (by omega), List.nil_append,
    show out.length + 7 + 4 - (out.length + 7) = 4 from by omega, drop_beBytes]
  simp [frameBytes, List.append_assoc]

/-- What the chunk loop does to a buffer does not depend on what the buffer already holds. -/
theorem encodeChunksInto_append (cs : List IncrementalChunk) (pre out : Bytes) :
    encodeChunksInto cs (pre ++ out) =
      ((encodeChunksInto cs out).1, pre ++ (encodeChunksInto cs out).2) := by
  induction cs generalizing out with
  | nil => rfl
  | cons c cs ih =>
    unfold encodeChunksInto
    by_cases ho : 2 ^ 32 ≤ c.offset
    · rw [if_pos ho, if_pos ho]
    · by_cases hl : 2 ^ 32 ≤ c.length
      · rw [if_neg ho, if_neg ho, if_pos hl, if_pos hl]
      · rw [if_neg ho, if_neg ho, if_neg hl, if_neg hl, List.append_assoc, ih]

theorem encodePayloadInto_append (b : BinaryMessage) (pre out : Bytes) :
    b.encodePayloadInto (pre ++ out) =
      ((b.encodePayloadInto out).1, pre ++ (b.encodePayloadInto out).2) := by
  cases b with
  | streamData m =>
    simp only [BinaryMessage.encodePayloadInto, encodeConnSeqInto]
    split <;> simp [List.append_assoc]
  | compressedStreamData m =>
    simp only [BinaryMessage.encodePayloadInto, encodeConnSeqLenInto]
    split
    · rfl
    · split <;> simp [List.append_assoc]
  | incrementalStreamData m =>
    simp only [BinaryMessage.encodePayloadInto, encodeIncrementalInto]
    split
    · rfl
    · split
      · rfl
      · rw [List.append_assoc, encodeChunksInto_append]
  | compressedIncrementalStreamData m =>
    simp only [BinaryMessage.encodePayloadInto, encodeConnSeqLenInto]
    split
    · rfl
    · split <;> simp [List.append_assoc]

/-- The payload `encode_into` puts behind the header, or the error it returns. -/
def Frame.wirePayload (S : Serde) : Frame → Result Bytes
  | .json m =>
    match S.toVec m with
    | .error e => .error (.protocol e)
    | .ok payload =>
      let len := payload.length
      if len > maxFrameSize then
        .error (.protocol s!"Frame payload too large: {len} bytes (max {maxFrameSize})")
      else .ok payload
  | .binary m =>
    match m.encodePayloadInto [] with
    | (.error e, _) => .error e
    | (.ok (), payload) =>
      if payload.length > maxFrameSize then .error (tooLarge m.label payload.length)
      else .ok payload
  | .heartbeat => .ok []
  | .heartbeatAck => .ok []

/-- **`encode_into` in closed form.** It appends one whole frame, or fails and leaves the buffer as
    it was; which of the two does not depend on the buffer. -/
theorem encodeInto_eq (S : Serde) (f : Frame) (out : Bytes) :
    f.encodeInto S out =
      match f.wirePayload S with
      | .ok p => (.ok (), out ++ frameBytes f.msgType p)
      | .error e => (.error e, out) := by
  cases f with
  | json m =>
    simp only [Frame.encodeInto, Frame.wirePayload]
    cases S.toVec m with
    | error e => rfl
    | ok payload =>
      by_cases hlen : payload.length > maxFrameSize
      · simp only [if_pos hlen]
      · simp only [if_neg hlen]
        exact congrArg (Prod.mk _) (finishHeader_beginHeader out payload m.msgType)
  | binary m =>
    have hbuf : (beginHeader out m.msgType.tag).1 = (beginHeader out m.msgType.tag).1 ++ [] :=
      (List.append_nil _).symm
    simp only [Frame.encodeInto, Frame.wirePayload]
    rw [hbuf, encodePayloadInto_append]
    have hstart : ∀ p : Bytes, ((beginHeader out m.msgType.tag).1 ++ p).take out.length = out := by
      intro p
      simp [beginHeader, List.append_assoc]
    have hlen : ∀ p : Bytes,
        ((beginHeader out m.msgType.tag).1 ++ p).length - out.length - frameHeaderSize =
          p.length := by
      intro p
      simp [beginHeader, frameHeaderSize, magicBytes]; omega
    rcases m.encodePayloadInto [] with ⟨_ | _, payload⟩
    · simp only [beginHeader, Prod.mk.injEq, true_and]
      exact hstart payload
    · have hpos : (beginHeader out m.msgType.tag).2 = out.length := rfl
      simp only [finishHeaderChecked, hpos, hlen]
      by_cases hmax : payload.length > maxFrameSize
      · simp only [if_pos hmax, hstart, List.take_length]
      · simp only [if_neg hmax]
        exact congrArg (Prod.mk _) (finishHeader_beginHeader out payload m.msgType)
  | heartbeat =>
    have h := finishHeader_beginHeader out [] .heartbeat
    rw [List.append_nil] at h
    exact congrArg (Prod.mk _) h
  | heartbeatAck =>
    have h := finishHeader_beginHeader out [] .heartbeatAck
    rw [List.append_nil] at h
    exact congrArg (Prod.mk _) h

theorem encode_eq (S : Serde) (f : Frame) :
    f.encode S = (f.wirePayload S).map (frameBytes f.msgType) := by
  unfold Frame.encode
  rw [encodeInto_eq]
  cases f.wirePayload S with
  | error e => rfl
  | ok p => rfl

theorem wirePayload_length_le {S : Serde} {f : Frame} {p : Bytes} (h : f.wirePayload S = .ok p) :
    p.length ≤ maxFrameSize := by
  cases f with
  | json m =>
    unfold Frame.wirePayload at h
    cases hv : S.toVec m with
    | error e => simp [hv] at h
    | ok payload =>
      simp only [hv] at h
      split at h
      · contradiction
      · cases h; omega
  | binary m =>
    unfold Frame.wirePayload at h
    rcases hv : m.encodePayloadInto [] with ⟨_ | _, payload⟩
    · simp [hv] at h
    · simp only [hv] at h
      split at h
      · contradiction
      · cases h; omega
  | heartbeat => cases h; exact Nat.zero_le _
  | heartbeatAck => cases h; exact Nat.zero_le _

/-- A plain data frame within the size limit encodes. -/
theorem wirePayload_streamData (S : Serde) (m : StreamDataMessage)
    (h : 8 + m.data.length ≤ maxFrameSize) :
    (Frame.binary (.streamData m)).wirePayload S = .ok (BinaryMessage.streamData m).payload := by
  have hdata : ¬ m.data.length > maxFrameSize := by omega
  have hlen : ¬ (BinaryMessage.streamData m).payload.length > maxFrameSize := by
    simp only [BinaryMessage.payload, List.length_append, be32_length]; omega
  simp only [Frame.wirePayload, BinaryMessage.encodePayloadInto, encodeConnSeqInto, if_neg hdata,
    List.nil_append]
  exact if_neg hlen

/-- **What encodes.** A binary frame encodes exactly when its fields fit and it is not above the limit. -/
theorem encodeInto_binary_ok_iff (S : Serde) (m : BinaryMessage) (out : Bytes) :
    ((Frame.binary m).encodeInto S out).1 = .ok () ↔ m.Fits ∧ m.payloadLen ≤ maxFrameSize := by
  rw [encodeInto_eq]
  unfold Frame.wirePayload
  constructor
  · intro h
    rcases hv : m.encodePayloadInto [] with ⟨_ | _, payload⟩
    · simp [hv] at h
    · obtain ⟨hpayload, hfits⟩ := BinaryMessage.encodePayloadInto_ok hv
      rw [List.nil_append] at hpayload
      simp only [hv] at h
      split at h
      · rename_i p hp
        split at hp
        · cases hp
        · rw [← m.payload_length, ← hpayload]
          exact ⟨hfits, by omega⟩
      · cases h
  · rintro ⟨hfits, hlen⟩
    obtain ⟨payload, hv⟩ := BinaryMessage.encodePayloadInto_of_fits hfits hlen []
    obtain ⟨hpayload, -⟩ := BinaryMessage.encodePayloadInto_ok hv
    rw [List.nil_append] at hpayload
    have hmax : ¬ payload.length > maxFrameSize := by
      rw [hpayload, m.payload_length]
      omega
    simp only [hv, if_neg hmax]

/-! ## Reading a frame back -/

/-- The header of a whole frame is recognised, whatever follows the frame. -/
theorem peekFrame_frameBytes (t : MessageType) (p rest : Bytes) (hp : p.length ≤ maxFrameSize) :
    peekFrame (frameBytes t p ++ rest) = .ok (some (t, frameHeaderSize + p.length)) := by
  have hlen : ¬ (frameBytes t p ++ rest).length < frameHeaderSize := by
    rw [List.length_append, frameBytes_length]; omega
  have hp32 : p.length < 2 ^ 32 := by unfold maxFrameSize at hp; omega
  have hlay : frameBytes t p ++ rest = magicBytes ++ ([wireVersion] ++ (beBytes 2 t.tag ++
      (be32 (UInt32.ofNat p.length) ++ (p ++ rest)))) := by
    simp [frameBytes, be32, u32_toNat_ofNat hp32, List.append_assoc]
  have hmagic : (frameBytes t p ++ rest).take 4 = magicBytes := by
    rw [hlay]; exact List.take_left' rfl
  have hver : (frameBytes t p ++ rest).getD 4 0 = wireVersion := by rw [hlay]; rfl
  have htag : beU16At (frameBytes t p ++ rest) 5 = t.tag := by
    rw [hlay, ← List.append_assoc]
    exact beU16At_beBytes _ _ _ 5 (by simp [magicBytes]) t.tag_lt
  have h32 : (beU32At (frameBytes t p ++ rest) 7).toNat = p.length := by
    rw [hlay, ← List.append_assoc, ← List.append_assoc,
      beU32At_be32 _ _ _ 7 (by simp [magicBytes]), u32_toNat_ofNat hp32]
  unfold peekFrame
  rw [if_neg hlen, hmagic, hver, h32, htag]
  simp only [ne_eq, not_true_eq_false, if_false, if_neg (Nat.not_lt.mpr hp),
    MessageType.tryFrom_tag, bind, Except.bind]

/-- The length field of a frame behind other frames. -/
theorem lengthField_frameBytes (out p : Bytes) (t : MessageType) (hp : p.length ≤ maxFrameSize) :
    (beU32At (out ++ frameBytes t p) (out.length + 7)).toNat = p.length := by
  have hp32 : p.length < 2 ^ 32 := by unfold maxFrameSize at hp; omega
  have hlay : out ++ frameBytes t p = (out ++ (magicBytes ++ ([wireVersion] ++ beBytes 2 t.tag))) ++
      (be32 (UInt32.ofNat p.length) ++ p) := by
    simp [frameBytes, be32, u32_toNat_ofNat hp32, List.append_assoc]
  rw [hlay, beU32At_be32 _ _ _ _ (by simp [magicBytes]), u32_toNat_ofNat hp32]

/-- **All or nothing.** Whatever the buffer holds, an encode that succeeds appends one frame with the
    payload of the message, whose header is recognised and whose length field is the length of that
    payload, at most the limit; an encode that fails leaves the buffer byte for byte as it was. -/
theorem encodeInto_all_or_nothing (S : Serde) (f : Frame) (out : Bytes) :
    match f.encodeInto S out with
    | (.ok (), out') => ∃ p : Bytes, f.wirePayload S = .ok p ∧ p.length ≤ maxFrameSize ∧
        out' = out ++ frameBytes f.msgType p ∧
        (beU32At out' (out.length + 7)).toNat = p.length ∧
        peekFrame (out'.drop out.length) = .ok (some (f.msgType, frameHeaderSize + p.length)) ∧
        out'.drop (out.length + frameHeaderSize) = p
    | (.error e, out') => f.wirePayload S = .error e ∧ out' = out := by
  rw [encodeInto_eq]
  cases hp : f.wirePayload S with
  | error e => exact ⟨rfl, rfl⟩
  | ok p =>
    have hlen := wirePayload_length_le hp
    refine ⟨p, rfl, hlen, rfl, lengthField_frameBytes out p f.msgType hlen, ?_, ?_⟩
    · have hpeek := peekFrame_frameBytes f.msgType p [] hlen
      rw [List.append_nil] at hpeek
      rw [List.drop_left]
      exact hpeek
    · rw [← List.drop_drop, List.drop_left, frameBytes_drop]

/-- A diff that fails at its second chunk has appended its first one by then. -/
example : (encodeIncrementalInto ⟨⟨7⟩, 3, 2, 40, [⟨4, 1, [1]⟩, ⟨2 ^ 32, 1, [9]⟩]⟩ [0xAA]).2.length = 28 ∧
    ((Frame.binary (.incrementalStreamData
      ⟨⟨7⟩, 3, 2, 40, [⟨4, 1, [1]⟩, ⟨2 ^ 32, 1, [9]⟩]⟩)).encodeInto
        ⟨fun _ => .error "", fun _ _ => .error ""⟩ [0xAA]).2 = [0xAA] := by
  decide +kernel

/-- The decoder accepts what the frame encodes to: the chunks of a diff declare the length of their
    own data, and the JSON kinds that are validated pass their validation. -/
def Frame.WellFormed : Frame → Prop
  | .json m => m.validate = .ok ()
  | .binary m => m.ChunksSized
  | .heartbeat => True
  | .heartbeatAck => True

theorem decodePayload_json (S : Serde) (m : JsonMessage) (p : Bytes) :
    decodePayload S m.msgType p = decodeJson S m.msgType p := by
  cases m <;> rfl

/-- A binary payload decodes to its message; no JSON is involved. -/
theorem decodePayload_binary {S : Serde} {m : BinaryMessage} {p : Bytes} (hm : m.ChunksSized)
    (hp : (Frame.binary m).wirePayload S = .ok p) :
    decodePayload S m.msgType p = .ok (.binary m) := by
  unfold Frame.wirePayload at hp
  rcases hv : m.encodePayloadInto [] with ⟨_ | _, payload⟩
  · simp [hv] at hp
  · simp only [hv] at hp
    split at hp
    · cases hp
    · cases hp
      obtain ⟨hpay, hfit⟩ := BinaryMessage.encodePayloadInto_ok hv
      rw [List.nil_append] at hpay
      subst hpay
      cases m with
      | streamData m =>
        simp only [BinaryMessage.msgType, decodePayload, BinaryMessage.decodePayload_streamData,
          Except.map, Function.comp]
      | compressedStreamData m =>
        simp only [BinaryMessage.msgType, decodePayload,
          BinaryMessage.decodePayload_compressed m hfit, Except.map, Function.comp]
      | incrementalStreamData m =>
        simp only [BinaryMessage.msgType, decodePayload,
          BinaryMessage.decodePayload_incremental m hfit hm, Except.map, Function.comp]
      | compressedIncrementalStreamData m =>
        simp only [BinaryMessage.msgType, decodePayload,
          BinaryMessage.decodePayload_compressedIncremental m hfit, Except.map, Function.comp]

/-- **Round trip.** The payload of a well-formed frame decodes to the frame. -/
theorem decodePayloadOwned_wirePayload {S : Serde} (hS : S.RoundTrips) {f : Frame} {p : Bytes}
    (hf : f.WellFormed) (hp : f.wirePayload S = .ok p) :
    decodePayloadOwned S f.msgType p = .ok f := by
  rw [decodePayloadOwned_eq]
  cases f with
  | json m =>
    unfold Frame.wirePayload at hp
    cases hv : S.toVec m with
    | error e => simp [hv] at hp
    | ok payload =>
      simp only [hv] at hp
      split at hp
      · cases hp
      · cases hp
        have hparse := hS m _ hv
        rw [Frame.msgType, decodePayload_json, decodeJson, hparse]
        unfold Frame.WellFormed at hf
        simp only [hf, bind, Except.bind]
  | binary m => exact decodePayload_binary hf hp
  | heartbeat => cases hp; rfl
  | heartbeatAck => cases hp; rfl

/-- The payload of a data frame that encodes, and its bytes around it. -/
theorem encode_binary_ok {S : Serde} {m : BinaryMessage} {b : Bytes}
    (h : (Frame.binary m).encode S = .ok b) :
    (Frame.binary m).wirePayload S = .ok m.payload ∧ b = frameBytes m.msgType m.payload := by
  rw [encode_eq] at h
  cases hp : (Frame.binary m).wirePayload S with
  | error e => rw [hp] at h; cases h
  | ok p =>
    rw [hp] at h
    cases h
    have hpay : p = m.payload := by
      unfold Frame.wirePayload at hp
      rcases hv : m.encodePayloadInto [] with ⟨_ | _, payload⟩
      · simp [hv] at hp
      · simp only [hv] at hp
        split at hp
        · cases hp
        · cases hp
          simpa using (BinaryMessage.encodePayloadInto_ok hv).1
    subst hpay
    exact ⟨rfl, rfl⟩

/-- A data frame decodes from its own bytes, whatever follows them. -/
theorem decodeFrame_encode_append {S : Serde} {m : BinaryMessage} {b : Bytes} (hm : m.ChunksSized)
    (h : (Frame.binary m).encode S = .ok b) (t : Bytes) :
    decodeFrame S (b ++ t) = .ok (some (.binary m, b.length)) := by
  obtain ⟨hp, rfl⟩ := encode_binary_ok h
  have hpeek := peekFrame_frameBytes m.msgType m.payload t (wirePayload_length_le hp)
  have hdrop : (frameBytes m.msgType m.payload ++ t).drop frameHeaderSize = m.payload ++ t := by
    rw [List.drop_append_of_le_length (by rw [frameBytes_length]; omega), frameBytes_drop]
  have hpay : ((frameBytes m.msgType m.payload ++ t).drop frameHeaderSize).take
      (frameHeaderSize + m.payload.length - frameHeaderSize) = m.payload := by
    rw [hdrop, Nat.add_sub_cancel_left]
    exact List.take_left' rfl
  have hlen : ¬ (frameBytes m.msgType m.payload ++ t).length < frameHeaderSize + m.payload.length := by
    rw [List.length_append, frameBytes_length]
    omega
  simp only [decodeFrame, hpeek, bind, Except.bind, if_neg hlen, hpay, decodePayload_binary hm hp,
    frameBytes_length]

/-- A data frame decodes from its own bytes. -/
theorem decodeFrame_encode_binary {S : Serde} {m : BinaryMessage} {b : Bytes} (hm : m.ChunksSized)
    (h : (Frame.binary m).encode S = .ok b) :
    decodeFrame S b = .ok (some (.binary m, b.length)) := by
  simpa using decodeFrame_encode_append hm h []

/-- **The four binary shapes.** A data frame that encodes decodes to itself from its bytes followed by
    anything, both decoders of its payload return it, and its size is the predicted one; and on every
    payload the owned and the borrowed decoder of each shape return the same. -/
theorem binary_codec_exact (S : Serde) :
    (∀ (m : BinaryMessage) (b t : Bytes), m.ChunksSized → (Frame.binary m).encode S = .ok b →
      decodeFrame S (b ++ t) = .ok (some (.binary m, b.length)) ∧
      decodePayloadOwned S m.msgType (b.drop frameHeaderSize) = .ok (.binary m) ∧
      b.length = (Frame.binary m).encodedSize) ∧
    ∀ payload : Bytes,
      StreamDataMessage.decodePayloadOwned payload = StreamDataMessage.decodePayload payload ∧
      CompressedStreamDataMessage.decodePayloadOwned payload =
        CompressedStreamDataMessage.decodePayload payload ∧
      IncrementalStreamDataMessage.decodePayloadOwned payload =
        IncrementalStreamDataMessage.decodePayload payload ∧
      CompressedIncrementalStreamDataMessage.decodePayloadOwned payload =
        CompressedIncrementalStreamDataMessage.decodePayload payload := by
  refine ⟨fun m b t hm h => ⟨decodeFrame_encode_append hm h t, ?_, ?_⟩, fun payload => ?_⟩
  · obtain ⟨hp, rfl⟩ := encode_binary_ok h
    rw [frameBytes_drop, decodePayloadOwned_eq]
    exact decodePayload_binary hm hp
  · obtain ⟨-, rfl⟩ := encode_binary_ok h
    rw [frameBytes_length, BinaryMessage.payload_length]
    rfl
  · exact ⟨StreamDataMessage.decodePayloadOwned_eq payload,
      CompressedStreamDataMessage.decodePayloadOwned_eq payload,
      IncrementalStreamDataMessage.decodePayloadOwned_eq payload,
      CompressedIncrementalStreamDataMessage.decodePayloadOwned_eq payload⟩

/-- A diff of two chunks, with the head of the next frame behind it. -/
theorem binary_codec_exact_diff :
    ∃ b, (Frame.binary (.incrementalStreamData ⟨⟨7⟩, 3, 2, 40, [⟨4, 2, [1, 2]⟩, ⟨8, 1, [9]⟩]⟩)).encode
        ⟨fun _ => .error "", fun _ _ => .error ""⟩ = .ok b ∧ b.length = 48 ∧
      decodeFrame ⟨fun _ => .error "", fun _ _ => .error ""⟩ (b ++ magicBytes) =
        .ok (some (.binary (.incrementalStreamData
          ⟨⟨7⟩, 3, 2, 40, [⟨4, 2, [1, 2]⟩, ⟨8, 1, [9]⟩]⟩), 48)) := by
  refine ⟨_, rfl, rfl, ?_⟩
  exact ((binary_codec_exact _).1 _ _ magicBytes (by decide) rfl).1

end RemoteX11.Protocol
