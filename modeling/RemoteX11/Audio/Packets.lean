/-
  The packetizer: PCM bytes in spans of any size, Opus packets out (`audio/mod.rs` of the core, `Packetizer`).

  The encoder is a state machine of which only this is known: what it makes of a frame follows from its state,
  the samples and the buffer it writes into. It may fail, and a failure may change its state. `Packetized` says
  what the packetizer is for, in terms of the frames of the whole stream, and `pushAll_packetized` that every
  way of cutting the stream into spans gives just that.
-/
import RemoteX11.Lib.Blocks
import RemoteX11.Lib.Bytes

namespace RemoteX11.Audio

open RemoteX11.Lib

/-- `CHANNELS`, `FRAME_SAMPLES`, `PCM_FRAME_BYTES` and `MAX_PACKET_BYTES`. -/
def channels : Nat := 2
def frameSamples : Nat := 960
def pcmFrameBytes : Nat := frameSamples * channels * 2
def maxPacketBytes : Nat := 4096

/-- `encode_i16`: the samples, the frame size and the output buffer, which is returned as it is afterwards with
    the number of bytes written to it. -/
abbrev Encode (σ : Type) := σ → List Int16 → Nat → Bytes → σ × Bytes × Except String Nat

structure Packetizer (σ : Type) where
  encoder : σ
  carry : Bytes
  samples : List Int16
  packet : Bytes
  seq : UInt32
  deriving DecidableEq, Repr

/-- `i16::from_le_bytes`. -/
def sampleOf (lo hi : UInt8) : Int16 := (lo.toUInt16 ||| hi.toUInt16 <<< 8).toInt16

/-- The pairs of bytes of the frame go into the slots, as far as there are slots. -/
def fillSamples : List Int16 → Bytes → List Int16
  | _ :: slots, lo :: hi :: frame => sampleOf lo hi :: fillSamples slots frame
  | slots, _ => slots

namespace Packetizer

variable {σ : Type} (encode : Encode σ)

/-- `new`, with the encoder that was made. -/
def new (encoder : σ) : Packetizer σ where
  encoder := encoder
  carry := []
  samples := List.replicate (frameSamples * channels) 0
  packet := List.replicate maxPacketBytes 0
  seq := 0

/-- One turn of the loop in `push`: the callback, if there is one, and the packetizer after it. -/
def encodeFrame (p : Packetizer σ) : Option (UInt32 × Bytes) × Packetizer σ :=
  let samples := fillSamples p.samples (p.carry.take pcmFrameBytes)
  let encoded := encode p.encoder samples frameSamples p.packet
  let callback :=
    match encoded.2.2 with
    | .ok n => some (p.seq, encoded.2.1.take n)
    | .error _ => none
  (callback,
    { encoder := encoded.1
      carry := p.carry.drop pcmFrameBytes
      samples := samples
      packet := encoded.2.1
      seq := p.seq + 1 })

theorem encodeFrame_carry (p : Packetizer σ) :
    (p.encodeFrame encode).2.carry = p.carry.drop pcmFrameBytes := rfl

/-- The loop in `push`. -/
def drain (p : Packetizer σ) : List (UInt32 × Bytes) × Packetizer σ :=
  if pcmFrameBytes ≤ p.carry.length then
    let rest := drain (p.encodeFrame encode).2
    ((p.encodeFrame encode).1.toList ++ rest.1, rest.2)
  else ([], p)
termination_by p.carry.length
decreasing_by
  rw [encodeFrame_carry, List.length_drop]
  have hpos : 0 < pcmFrameBytes := by decide
  omega

/-- `push`. -/
def push (p : Packetizer σ) (data : Bytes) : List (UInt32 × Bytes) × Packetizer σ :=
  if data.isEmpty then ([], p) else drain encode { p with carry := p.carry ++ data }

/-- One span after another. -/
def pushAll (p : Packetizer σ) : List Bytes → List (UInt32 × Bytes) × Packetizer σ
  | [] => ([], p)
  | data :: spans =>
    let rest := pushAll (p.push encode data).2 spans
    ((p.push encode data).1 ++ rest.1, rest.2)

/-! ## What the packetizer is for -/

/-- The samples of a frame. -/
def samplesOf : Bytes → List Int16
  | lo :: hi :: frame => sampleOf lo hi :: samplesOf frame
  | _ => []

/-- What the encoder makes of one frame: the packet, unless it fails. -/
def encodeOne (s : σ × Bytes) (frame : Bytes) : (σ × Bytes) × Option Bytes :=
  let encoded := encode s.1 (samplesOf frame) frameSamples s.2
  ((encoded.1, encoded.2.1), encoded.2.2.toOption.map fun n => encoded.2.1.take n)

/-- The packets with their numbers: that of frame `k` is `k` modulo `2^32`, and a frame that failed leaves its
    number out. -/
def numbered (packets : List (Option Bytes)) (first : Nat) : List (UInt32 × Bytes) :=
  (packets.zipIdx first).filterMap fun e => e.1.map fun packet => (UInt32.ofNat e.2, packet)

/-- `calls` and `p` are what a packetizer makes of the stream. -/
structure Packetized (encoder : σ) (stream : Bytes) (calls : List (UInt32 × Bytes)) (p : Packetizer σ) :
    Prop where
  /-- one callback for each frame of the stream that can be encoded, in order -/
  calls : calls = numbered (machine (encodeOne encode) (encoder, List.replicate maxPacketBytes 0)
    (blocks pcmFrameBytes stream)).2 0
  /-- the bytes behind the last frame are carried -/
  carry : p.carry = remainder pcmFrameBytes stream
  short : p.carry.length < pcmFrameBytes
  /-- so that the frames and what is carried are the stream -/
  whole : (blocks pcmFrameBytes stream).flatten ++ p.carry = stream
  seq : p.seq = UInt32.ofNat (stream.length / pcmFrameBytes)

/-! ## Spans -/

variable {encode} {p : Packetizer σ}

theorem drain_short (h : p.carry.length < pcmFrameBytes) : drain encode p = ([], p) := by
  rw [drain, if_neg (by omega)]

theorem drain_step (h : pcmFrameBytes ≤ p.carry.length) :
    drain encode p = ((p.encodeFrame encode).1.toList ++ (drain encode (p.encodeFrame encode).2).1,
      (drain encode (p.encodeFrame encode).2).2) := by
  rw [drain, if_pos h]

theorem drain_carry_length (p : Packetizer σ) : (drain encode p).2.carry.length < pcmFrameBytes := by
  induction p using drain.induct encode with
  | case1 p h ih =>
    rw [drain_step h]
    exact ih
  | case2 p h =>
    rw [drain_short (by omega)]
    exact Nat.lt_of_not_le h

/-- The frame at the head does not see what is carried behind it. -/
theorem encodeFrame_append (h : pcmFrameBytes ≤ p.carry.length) (more : Bytes) :
    encodeFrame encode { p with carry := p.carry ++ more } =
      ((p.encodeFrame encode).1,
        { (p.encodeFrame encode).2 with carry := (p.encodeFrame encode).2.carry ++ more }) := by
  unfold encodeFrame
  simp only [List.take_append_of_le_length h, List.drop_append_of_le_length h]

/-- **A span after the loop** is a longer carry before it. -/
theorem drain_append (p : Packetizer σ) (more : Bytes) :
    drain encode { p with carry := p.carry ++ more } =
      ((drain encode p).1 ++ (drain encode { (drain encode p).2 with
          carry := (drain encode p).2.carry ++ more }).1,
        (drain encode { (drain encode p).2 with carry := (drain encode p).2.carry ++ more }).2) := by
  induction p using drain.induct encode with
  | case1 p h ih =>
    have hlong : pcmFrameBytes ≤ (p.carry ++ more).length := by
      rw [List.length_append]
      omega
    rw [drain_step (p := { p with carry := p.carry ++ more }) hlong, encodeFrame_append h, ih, drain_step h]
    simp only [List.append_assoc]
  | case2 p h =>
    rw [drain_short (p := p) (by omega)]
    rfl

theorem push_eq (hcarry : p.carry.length < pcmFrameBytes) (data : Bytes) :
    push encode p data = drain encode { p with carry := p.carry ++ data } := by
  unfold push
  cases data with
  | nil =>
    rw [if_pos List.isEmpty_nil, List.append_nil, drain_short hcarry]
  | cons b data => rw [if_neg (by simp)]

/-- **Every split is one push.** -/
theorem pushAll_eq_push (hcarry : p.carry.length < pcmFrameBytes) (spans : List Bytes) :
    pushAll encode p spans = push encode p spans.flatten := by
  induction spans generalizing p with
  | nil => rfl
  | cons data spans ih =>
    have hnext : (push encode p data).2.carry.length < pcmFrameBytes := by
      rw [push_eq hcarry]
      exact drain_carry_length _
    rw [pushAll, ih hnext, List.flatten_cons, push_eq hnext, push_eq hcarry, push_eq hcarry, ← List.append_assoc]
    exact (drain_append { p with carry := p.carry ++ data } spans.flatten).symm

/-! ## The frames of the stream -/

theorem fillSamples_eq {slots : List Int16} {frame : Bytes} (h : frame.length = 2 * slots.length) :
    fillSamples slots frame = samplesOf frame := by
  induction slots generalizing frame with
  | nil =>
    obtain rfl := List.length_eq_zero_iff.mp h
    rfl
  | cons slot slots ih =>
    match frame, h with
    | lo :: hi :: frame, h =>
      have hlen : frame.length = 2 * slots.length := by
        simp only [List.length_cons] at h
        omega
      exact congrArg _ (ih hlen)

theorem fillSamples_length (slots : List Int16) (frame : Bytes) :
    (fillSamples slots frame).length = slots.length := by
  induction slots, frame using fillSamples.induct with
  | case1 slot slots lo hi frame ih =>
    rw [fillSamples, List.length_cons, ih, List.length_cons]
  | case2 slots frame h => rw [fillSamples]; exact h

theorem numbered_cons (packet : Option Bytes) (packets : List (Option Bytes)) (first : Nat) :
    numbered (packet :: packets) first =
      (packet.map fun packet => (UInt32.ofNat first, packet)).toList ++ numbered packets (first + 1) := by
  unfold numbered
  rw [List.zipIdx_cons, List.filterMap_cons]
  cases packet <;> rfl

variable (encode)

/-- One turn of the loop is one step of the encoder. -/
theorem encodeFrame_eq (hsamples : p.samples.length = frameSamples * channels)
    (hlong : pcmFrameBytes ≤ p.carry.length) :
    (p.encodeFrame encode).1 = (encodeOne encode (p.encoder, p.packet) (p.carry.take pcmFrameBytes)).2.map
        (fun packet => (p.seq, packet)) ∧
      ((p.encodeFrame encode).2.encoder, (p.encodeFrame encode).2.packet) =
        (encodeOne encode (p.encoder, p.packet) (p.carry.take pcmFrameBytes)).1 ∧
      (p.encodeFrame encode).2.samples.length = frameSamples * channels := by
  have hfill : fillSamples p.samples (p.carry.take pcmFrameBytes) =
      samplesOf (p.carry.take pcmFrameBytes) := by
    apply fillSamples_eq
    rw [List.length_take, hsamples, Nat.min_eq_left hlong]
    rfl
  refine ⟨?_, ?_, ?_⟩
  · unfold encodeFrame encodeOne
    simp only [hfill]
    cases (encode p.encoder (samplesOf (p.carry.take pcmFrameBytes)) frameSamples p.packet).2.2 <;> rfl
  · unfold encodeFrame encodeOne
    simp only [hfill]
  · exact (fillSamples_length _ _).trans hsamples

/-- **The loop encodes the frames it carries**, one after another. -/
theorem drain_eq (p : Packetizer σ) (hsamples : p.samples.length = frameSamples * channels) (first : Nat)
    (hseq : p.seq = UInt32.ofNat first) :
    (drain encode p).1 =
        numbered (machine (encodeOne encode) (p.encoder, p.packet) (blocks pcmFrameBytes p.carry)).2 first ∧
      (drain encode p).2.carry = remainder pcmFrameBytes p.carry ∧
      (drain encode p).2.seq = UInt32.ofNat (first + p.carry.length / pcmFrameBytes) := by
  have hpos : 0 < pcmFrameBytes := by decide
  induction p using drain.induct encode generalizing first with
  | case1 p h ih =>
    obtain ⟨hcall, hstate, hnext⟩ := encodeFrame_eq encode hsamples h
    have hseq' : (p.encodeFrame encode).2.seq = UInt32.ofNat (first + 1) := by
      rw [UInt32.ofNat_add, ← hseq]
      rfl
    obtain ⟨hcalls, hcarry, hlast⟩ := ih hnext (first + 1) hseq'
    rw [drain_step h, blocks_step hpos h, machine_cons, numbered_cons, remainder_step hpos h,
      length_drop_div hpos h, ← hstate, ← hseq, hcall]
    rw [encodeFrame_carry] at hcalls hcarry hlast
    refine ⟨congrArg _ hcalls, hcarry, ?_⟩
    rw [hlast, Nat.add_assoc, Nat.add_comm 1]
  | case2 p h =>
    rw [drain_short (by omega), blocks_short (by omega), remainder_short (by omega),
      Nat.div_eq_of_lt (by omega)]
    exact ⟨rfl, rfl, hseq⟩

/-- **However the stream is cut into spans**, the packetizer makes of it what one push of the whole stream
    makes of it, and that is what it is for. -/
theorem pushAll_packetized (encoder : σ) (spans : List Bytes) :
    pushAll encode (new encoder) spans = push encode (new encoder) spans.flatten ∧
      Packetized encode encoder spans.flatten (pushAll encode (new encoder) spans).1
        (pushAll encode (new encoder) spans).2 := by
  have hcarry : (new encoder).carry.length < pcmFrameBytes := by
    rw [new, List.length_nil]
    decide
  have hone : pushAll encode (new encoder) spans = push encode (new encoder) spans.flatten :=
    pushAll_eq_push hcarry spans
  refine ⟨hone, ?_⟩
  rw [hone, push_eq hcarry]
  obtain ⟨hcalls, hcarried, hseq⟩ := drain_eq encode
    { new encoder with carry := [] ++ spans.flatten } List.length_replicate 0 rfl
  rw [List.nil_append] at hcarried
  rw [Nat.zero_add] at hseq
  refine ⟨hcalls, hcarried, ?_, ?_, hseq⟩
  · exact drain_carry_length _
  · exact (congrArg _ hcarried).trans (flatten_blocks _ _)

end Packetizer

end RemoteX11.Audio
