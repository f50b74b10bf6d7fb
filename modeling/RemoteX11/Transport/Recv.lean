/-
  The receiving half of the transport (`transport.rs`, `recv_frame_inner`).

  A reader is the list of results its next reads return; the end of the list is the end of the
  stream. `recvFrameInner` takes the accumulation buffer and the reader and returns the result with
  both as they are afterwards.

  `recvFrames_wire`: bytes that are a concatenation of encoded well-formed frames are received as
  exactly these frames, in order, however the stream is cut into reads.
-/
import RemoteX11.Protocol.Frame

namespace RemoteX11.Transport

open RemoteX11.Lib RemoteX11.Protocol

/-- `READ_BUF_HARD_LIMIT`. -/
def readBufHardLimit : Nat := maxFrameSize + 256

/-- `scan_for_magic`: the first offset past the start at which the magic bytes stand, or 0. -/
def scanForMagic (data : Bytes) : Nat :=
  if data.length ≤ 4 then 0
  else ((List.range' 1 (data.length - 4)).find? fun i =>
    (data.drop i).take 4 == magicBytes).getD 0

/-- What one `read_buf` returns; an empty read is the end of the stream. -/
abbrev Read := Except IoError Bytes

theorem drop_scanForMagic_length {data : Bytes} (h : scanForMagic data ≠ 0) :
    (data.drop (scanForMagic data)).length < data.length := by
  have hlen : ¬ data.length ≤ 4 := by
    intro hle
    exact h (if_pos hle)
  rw [List.length_drop]
  omega

/-- `recv_frame_inner`. -/
def recvFrameInner (S : Serde) (readBuf : Bytes) (reader : List Read) :
    Result Frame × Bytes × List Read :=
  match peekFrame readBuf with
  | .error _ =>
    if _h : scanForMagic readBuf = 0 then
      (.error (.protocol "Invalid frame and no recovery possible"), readBuf, reader)
    else recvFrameInner S (readBuf.drop (scanForMagic readBuf)) reader
  | .ok peeked =>
    match peeked.filter fun (_, total) => total ≤ readBuf.length with
    | some (msgType, total) =>
      (decodePayloadOwned S msgType ((readBuf.take total).drop frameHeaderSize),
        readBuf.drop total, reader)
    | none =>
      if readBuf.length > readBufHardLimit then
        (.error (.protocol "read buffer exceeded maximum size"), readBuf, reader)
      else
        match reader with
        | [] => (.error .connectionClosed, readBuf, [])
        | .error e :: reader => (.error (.io e), readBuf, reader)
        | .ok [] :: reader => (.error .connectionClosed, readBuf, reader)
        | .ok (b :: bs) :: reader => recvFrameInner S (readBuf ++ b :: bs) reader
termination_by (reader.length, readBuf.length)
decreasing_by
  · exact Prod.Lex.right _ (drop_scanForMagic_length _h)
  · exact Prod.Lex.left _ _ (Nat.lt_succ_self _)

/-- The results of `n` successive `recv_frame` calls. -/
def recvFrames (S : Serde) : Nat → Bytes → List Read → List (Result Frame)
  | 0, _, _ => []
  | n + 1, readBuf, reader =>
    let (result, readBuf, reader) := recvFrameInner S readBuf reader
    result :: recvFrames S n readBuf reader

/-! ## Receiving one frame -/

/-- The header decides `peek_frame`: eleven bytes are enough. -/
theorem peekFrame_append (data rest : Bytes) (h : frameHeaderSize ≤ data.length) :
    peekFrame (data ++ rest) = peekFrame data := by
  unfold frameHeaderSize at h
  have hl : ¬ data.length < frameHeaderSize := by unfold frameHeaderSize; omega
  have hl' : ¬ (data ++ rest).length < frameHeaderSize := by
    rw [List.length_append]; unfold frameHeaderSize; omega
  have htake : (data ++ rest).take 4 = data.take 4 := List.take_append_of_le_length (by omega)
  have hget : (data ++ rest).getD 4 0 = data.getD 4 0 := by
    simp only [List.getD_eq_getElem?_getD, List.getElem?_append_left (show 4 < data.length by omega)]
  have hfield : ∀ i k, i + k ≤ data.length →
      ((data ++ rest).drop i).take k = (data.drop i).take k := by
    intro i k hik
    rw [List.drop_append_of_le_length (by omega),
      List.take_append_of_le_length (by rw [List.length_drop]; omega)]
  unfold peekFrame beU32At beU16At
  rw [if_neg hl, if_neg hl', htake, hget, hfield 5 2 (by omega), hfield 7 4 (by omega)]

/-- A complete frame at the head of the buffer is taken out without a read. -/
theorem recvFrameInner_complete (S : Serde) (t : MessageType) (p rest : Bytes) (reader : List Read)
    (hp : p.length ≤ maxFrameSize) :
    recvFrameInner S (frameBytes t p ++ rest) reader =
      (decodePayloadOwned S t p, rest, reader) := by
  have hle : frameHeaderSize + p.length ≤ (frameBytes t p ++ rest).length := by
    rw [List.length_append, frameBytes_length]; omega
  have htake : (frameBytes t p ++ rest).take (frameHeaderSize + p.length) = frameBytes t p :=
    List.take_left' (frameBytes_length t p)
  have hdrop : (frameBytes t p ++ rest).drop (frameHeaderSize + p.length) = rest :=
    List.drop_left' (frameBytes_length t p)
  rw [recvFrameInner.eq_def, peekFrame_frameBytes t p rest hp]
  simp only [Option.filter, hle, decide_true, if_true, htake, hdrop, frameBytes_drop]

/-- A buffer that ends inside a frame holds no complete frame, and is within the limit: a partial header
    says nothing yet, a whole one announces more than the buffer holds. -/
theorem peekFrame_partial {t : MessageType} {p buf more : Bytes} (hp : p.length ≤ maxFrameSize)
    (hmore : more ≠ []) (hbuf : buf ++ more = frameBytes t p) :
    (∃ o, peekFrame buf = .ok o ∧
      (o.filter fun (_, total) => decide (total ≤ buf.length)) = none) ∧
    ¬ buf.length > readBufHardLimit := by
  have hpos : 0 < more.length := List.length_pos_iff.mpr hmore
  have hlen : buf.length + more.length = frameHeaderSize + p.length := by
    rw [← frameBytes_length t p, ← hbuf, List.length_append]
  refine ⟨?_, by unfold readBufHardLimit frameHeaderSize at *; omega⟩
  by_cases hh : frameHeaderSize ≤ buf.length
  · refine ⟨some (t, frameHeaderSize + p.length), ?_, ?_⟩
    · rw [← peekFrame_append buf more hh, hbuf]
      have := peekFrame_frameBytes t p [] hp
      rwa [List.append_nil] at this
    · simp only [Option.filter_some, ite_eq_right_iff, decide_eq_true_eq, reduceCtorEq]
      omega
  · refine ⟨none, ?_, rfl⟩
    unfold peekFrame
    rw [if_pos (by omega)]

/-- While the frame is incomplete the next read is appended. -/
theorem recvFrameInner_incomplete (S : Serde) (t : MessageType) (p buf more : Bytes)
    (reader : List Read) (hp : p.length ≤ maxFrameSize) (hmore : more ≠ [])
    (hbuf : buf ++ more = frameBytes t p) :
    (∀ b : Bytes, b ≠ [] → recvFrameInner S buf (.ok b :: reader) =
      recvFrameInner S (buf ++ b) reader) ∧
    recvFrameInner S buf [] = (.error .connectionClosed, buf, []) := by
  obtain ⟨⟨o, ho, hfilter⟩, hlimit⟩ := peekFrame_partial hp hmore hbuf
  refine ⟨?_, ?_⟩
  · intro b hb
    cases b with
    | nil => exact absurd rfl hb
    | cons x xs =>
      rw [recvFrameInner.eq_def, ho]
      simp only [hfilter, if_neg hlimit]
  · rw [recvFrameInner.eq_def, ho]
    simp only [hfilter, if_neg hlimit]

/-- Reads that together continue the buffer into a frame and what follows it deliver the frame. -/
theorem recvFrameInner_reads (S : Serde) (t : MessageType) (p rest buf : Bytes)
    (reads : List Bytes) (hp : p.length ≤ maxFrameSize) (hne : ∀ b ∈ reads, b ≠ [])
    (hbuf : buf ++ reads.flatten = frameBytes t p ++ rest) :
    ∃ (buf' : Bytes) (reads' : List Bytes), recvFrameInner S buf (reads.map .ok) =
        (decodePayloadOwned S t p, buf', reads'.map .ok) ∧
      buf' ++ reads'.flatten = rest ∧ ∀ b ∈ reads', b ≠ [] := by
  induction reads generalizing buf with
  | nil =>
    rw [List.flatten_nil, List.append_nil] at hbuf
    refine ⟨rest, [], ?_, by simp, by simp⟩
    rw [hbuf]
    exact recvFrameInner_complete S t p rest _ hp
  | cons b reads ih =>
    rcases List.append_eq_append_iff.mp hbuf with ⟨more, hfr, hmore⟩ | ⟨tail, hfr, htail⟩
    · -- the buffer ends inside the frame, or exactly at its end
      by_cases hm : more = []
      · subst hm
        rw [List.append_nil] at hfr
        refine ⟨[], b :: reads, ?_, ?_, hne⟩
        · have := recvFrameInner_complete S t p [] ((b :: reads).map .ok) hp
          rwa [List.append_nil, hfr] at this
        · simpa using hmore
      · have hstep := (recvFrameInner_incomplete S t p buf more (reads.map .ok) hp hm hfr.symm).1 b
          (hne b List.mem_cons_self)
        rw [List.map_cons, hstep]
        apply ih
        · exact fun c hc => hne c (List.mem_cons_of_mem _ hc)
        · rw [List.append_assoc, ← List.flatten_cons, hbuf]
    · refine ⟨tail, b :: reads, ?_, htail.symm, hne⟩
      rw [hfr]
      exact recvFrameInner_complete S t p tail _ hp

/-! ## Receiving a stream -/

/-- The bytes of a list of frames written one after the other; a frame that does not encode
    contributes nothing. -/
def wire (S : Serde) (frames : List Frame) : Bytes :=
  (frames.map fun f => (f.encode S).toOption.getD []).flatten

/-- The frame is one that `encode_into` accepts. -/
def Encodes (S : Serde) (f : Frame) : Prop := ∃ b, f.encode S = .ok b

@[simp] theorem wire_nil (S : Serde) : wire S [] = [] := rfl

theorem wire_append (S : Serde) (fs gs : List Frame) :
    wire S (fs ++ gs) = wire S fs ++ wire S gs := by
  simp [wire]

theorem wire_cons (S : Serde) (f : Frame) (fs : List Frame) :
    wire S (f :: fs) = (f.encode S).toOption.getD [] ++ wire S fs := by
  simp [wire]

theorem wire_cons_of_encodes {S : Serde} {f : Frame} (hf : Encodes S f) (fs : List Frame) :
    ∃ p, f.wirePayload S = .ok p ∧ wire S (f :: fs) = frameBytes f.msgType p ++ wire S fs := by
  obtain ⟨b, hb⟩ := hf
  rw [wire_cons, hb]
  rw [encode_eq] at hb
  cases hp : f.wirePayload S with
  | error e => rw [hp] at hb; cases hb
  | ok p =>
    rw [hp] at hb
    cases hb
    exact ⟨p, rfl, rfl⟩

/-- **The receiver recovers the frames.** Bytes that are the encodings of well-formed frames one
    after the other come out of `recv_frame` as these frames in order, then `ConnectionClosed`. -/
theorem recvFrames_wire {S : Serde} (hS : S.RoundTrips) (frames : List Frame) (buf : Bytes)
    (reads : List Bytes) (hne : ∀ b ∈ reads, b ≠ [])
    (hf : ∀ f ∈ frames, Encodes S f ∧ f.WellFormed)
    (hbuf : buf ++ reads.flatten = wire S frames) :
    recvFrames S (frames.length + 1) buf (reads.map .ok) =
      frames.map .ok ++ [.error .connectionClosed] := by
  induction frames generalizing buf reads with
  | nil =>
    have hnil : buf = [] ∧ reads.flatten = [] := by
      simpa only [wire_nil, List.append_eq_nil_iff] using hbuf
    have hreads : reads = [] := by
      cases reads with
      | nil => rfl
      | cons b bs =>
        exfalso
        apply hne b List.mem_cons_self
        have := hnil.2
        rw [List.flatten_cons, List.append_eq_nil_iff] at this
        exact this.1
    have hclosed := (recvFrameInner_incomplete S .heartbeat [] [] (frameBytes .heartbeat []) []
      (Nat.zero_le _) (by simp [frameBytes, magicBytes]) rfl).2
    rw [hnil.1, hreads, List.map_nil, List.length_nil, recvFrames, hclosed]
    rfl
  | cons f frames ih =>
    obtain ⟨henc, hwf⟩ := hf f List.mem_cons_self
    obtain ⟨p, hp, hwire⟩ := wire_cons_of_encodes henc frames
    rw [hwire] at hbuf
    obtain ⟨buf', reads', hrecv, hrest, hne'⟩ :=
      recvFrameInner_reads S f.msgType p (wire S frames) buf reads (wirePayload_length_le hp) hne hbuf
    rw [List.length_cons, recvFrames, hrecv, decodePayloadOwned_wirePayload hS hwf hp]
    simp only [List.map_cons, List.cons_append, List.cons.injEq, true_and]
    exact ih buf' reads' hne' (fun g hg => hf g (List.mem_cons_of_mem _ hg)) hrest

end RemoteX11.Transport
