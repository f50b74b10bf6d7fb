/-
  Successive calls of `recv_frame`, any of which may be dropped while it awaits a read.

  The relay loop and the serve loop await `recv_frame` inside a `select!`, so a call may be cancelled at
  its await and a new one is made in the next turn. What a call has read stays in the accumulation buffer;
  a call has no other state. `recvCall` is `recv_frame_inner` with the cancellation and with a log of what
  each turn of its loop did; without cancellations it is `recvFrameInner` (`recvCall_eq`).
-/
import RemoteX11.Transport.Recv

namespace RemoteX11.Transport

open RemoteX11.Lib RemoteX11.Protocol

/-- What happens at the await of a read. -/
inductive AtRead where
  | returns (read : Read)
  /-- another branch of the `select!` is taken -/
  | cancelled
  deriving DecidableEq

/-- What a turn of the loop did. -/
inductive Turn where
  /-- a frame of `total` bytes was taken out of the buffer and decoded -/
  | took (total : Nat)
  /-- a corrupt header was skipped -/
  | resynced (skipped : Nat)
  | noRecovery
  /-- the buffer was over `READ_BUF_HARD_LIMIT` -/
  | overLimit
  | awaited
  deriving DecidableEq

/-- A call: what it returned, unless it was cancelled, and its turns. -/
structure Call where
  result : Option (Result Frame)
  turns : List Turn

/-- The call after a turn before its own. -/
def Call.after (call : Call) (turn : Turn) : Call := { call with turns := turn :: call.turns }

/-- `recv_frame_inner`, with what happens at each of its awaits. -/
def recvCall (S : Serde) (readBuf : Bytes) (script : List AtRead) : Call × Bytes × List AtRead :=
  match peekFrame readBuf with
  | .error _ =>
    if _h : scanForMagic readBuf = 0 then
      (⟨some (.error (.protocol "Invalid frame and no recovery possible")), [.noRecovery]⟩, readBuf,
        script)
    else
      let (call, rest) := recvCall S (readBuf.drop (scanForMagic readBuf)) script
      (call.after (.resynced (scanForMagic readBuf)), rest)
  | .ok peeked =>
    match peeked.filter fun (_, total) => total ≤ readBuf.length with
    | some (msgType, total) =>
      (⟨some (decodePayloadOwned S msgType ((readBuf.take total).drop frameHeaderSize)), [.took total]⟩,
        readBuf.drop total, script)
    | none =>
      if readBuf.length > readBufHardLimit then
        (⟨some (.error (.protocol "read buffer exceeded maximum size")), [.overLimit]⟩, readBuf, script)
      else
        match script with
        | [] => (⟨some (.error .connectionClosed), [.awaited]⟩, readBuf, [])
        | .cancelled :: script => (⟨none, [.awaited]⟩, readBuf, script)
        | .returns (.error e) :: script => (⟨some (.error (.io e)), [.awaited]⟩, readBuf, script)
        | .returns (.ok []) :: script =>
          (⟨some (.error .connectionClosed), [.awaited]⟩, readBuf, script)
        | .returns (.ok (b :: bs)) :: script =>
          let (call, rest) := recvCall S (readBuf ++ b :: bs) script
          (call.after .awaited, rest)
termination_by (script.length, readBuf.length)
decreasing_by
  · exact Prod.Lex.right _ (drop_scanForMagic_length _h)
  · exact Prod.Lex.left _ _ (Nat.lt_succ_self _)

/-- `n` successive calls. -/
def recvCalls (S : Serde) : Nat → Bytes → List AtRead → List Call
  | 0, _, _ => []
  | n + 1, readBuf, script =>
    let (call, readBuf, script) := recvCall S readBuf script
    call :: recvCalls S n readBuf script

/-- The accumulation buffer and the script `n` calls leave. -/
def recvState (S : Serde) : Nat → Bytes → List AtRead → Bytes × List AtRead
  | 0, readBuf, script => (readBuf, script)
  | n + 1, readBuf, script =>
    let (_, readBuf, script) := recvCall S readBuf script
    recvState S n readBuf script

/-- A call that is never cancelled is `recv_frame_inner`. -/
theorem recvCall_eq (S : Serde) (readBuf : Bytes) (reader : List Read) :
    (recvCall S readBuf (reader.map .returns)).1.result =
        some (recvFrameInner S readBuf reader).1 ∧
      (recvCall S readBuf (reader.map .returns)).2 =
        ((recvFrameInner S readBuf reader).2.1, (recvFrameInner S readBuf reader).2.2.map .returns) := by
  fun_induction recvFrameInner S readBuf reader with
  | case1 readBuf reader e hpeek hscan =>
    rw [recvCall.eq_def, hpeek]
    simp [hscan]
  | case2 readBuf reader e hpeek hscan ih =>
    rw [recvCall.eq_def, hpeek]
    simp only [dif_neg hscan]
    exact ih
  | case3 readBuf reader peeked hpeek msgType total hfilter =>
    rw [recvCall.eq_def, hpeek]
    simp [hfilter]
  | case4 readBuf reader peeked hpeek hfilter hlimit =>
    rw [recvCall.eq_def, hpeek]
    simp [hfilter, hlimit]
  | case5 readBuf peeked hpeek hfilter hlimit =>
    rw [recvCall.eq_def, hpeek]
    simp [hfilter, hlimit]
  | case6 readBuf peeked hpeek hfilter hlimit e reader =>
    rw [recvCall.eq_def, hpeek]
    simp [hfilter, hlimit]
  | case7 readBuf peeked hpeek hfilter hlimit reader =>
    rw [recvCall.eq_def, hpeek]
    simp [hfilter, hlimit]
  | case8 readBuf peeked hpeek hfilter hlimit b bs reader ih =>
    rw [recvCall.eq_def, hpeek]
    simp only [hfilter, if_neg hlimit, List.map_cons]
    exact ih

/-! ## One call -/

/-- A script of a stream that has not failed: reads that bring something, and cancellations. -/
def AtRead.Sound : AtRead → Prop
  | .returns (.ok read) => read ≠ []
  | .returns (.error _) => False
  | .cancelled => True

/-- What an await brings. -/
def AtRead.bytes : AtRead → Bytes
  | .returns (.ok read) => read
  | _ => []

/-- The bytes a call has taken out of the buffer as frames. -/
def Call.taken (call : Call) : List Nat :=
  call.turns.filterMap fun turn => match turn with
    | .took total => some total
    | _ => none

theorem recvCall_complete (S : Serde) (t : MessageType) (p rest : Bytes) (script : List AtRead)
    (hp : p.length ≤ maxFrameSize) :
    recvCall S (frameBytes t p ++ rest) script =
      (⟨some (decodePayloadOwned S t p), [.took (frameBytes t p).length]⟩, rest, script) := by
  have hle : frameHeaderSize + p.length ≤ (frameBytes t p ++ rest).length := by
    rw [List.length_append, frameBytes_length]; omega
  have htake : (frameBytes t p ++ rest).take (frameHeaderSize + p.length) = frameBytes t p :=
    List.take_left' (frameBytes_length t p)
  have hdrop : (frameBytes t p ++ rest).drop (frameHeaderSize + p.length) = rest :=
    List.drop_left' (frameBytes_length t p)
  rw [recvCall.eq_def, peekFrame_frameBytes t p rest hp]
  simp only [Option.filter, hle, decide_true, if_true, htake, hdrop, frameBytes_drop,
    frameBytes_length]

/-- While the frame is incomplete the call awaits, and what happens there decides. -/
theorem recvCall_incomplete (S : Serde) {t : MessageType} {p buf more : Bytes}
    (hp : p.length ≤ maxFrameSize) (hmore : more ≠ []) (hbuf : buf ++ more = frameBytes t p) :
    recvCall S buf [] = (⟨some (.error .connectionClosed), [.awaited]⟩, buf, []) ∧
    ∀ script, recvCall S buf (.cancelled :: script) = (⟨none, [.awaited]⟩, buf, script) ∧
      ∀ b : Bytes, b ≠ [] → recvCall S buf (.returns (.ok b) :: script) =
        ((recvCall S (buf ++ b) script).1.after .awaited, (recvCall S (buf ++ b) script).2) := by
  obtain ⟨⟨o, ho, hfilter⟩, hlimit⟩ := peekFrame_partial hp hmore hbuf
  refine ⟨?_, ?_⟩
  · rw [recvCall.eq_def, ho]
    simp only [hfilter, if_neg hlimit]
  · intro script
    refine ⟨?_, ?_⟩
    · rw [recvCall.eq_def, ho]
      simp only [hfilter, if_neg hlimit]
    · intro b hb
      cases b with
      | nil => exact absurd rfl hb
      | cons x xs =>
        rw [recvCall.eq_def, ho]
        simp only [hfilter, if_neg hlimit]

/-- The frame encodes, and its payload decodes back to it. -/
def DecodesBack (S : Serde) (f : Frame) : Prop :=
  ∃ p, f.wirePayload S = .ok p ∧ decodePayloadOwned S f.msgType p = .ok f

/-- The frames still to come: what is buffered and what the reads will bring are their encodings. -/
structure Remaining (S : Serde) (frames : List Frame) (readBuf : Bytes) (script : List AtRead) :
    Prop where
  sound : ∀ r ∈ script, r.Sound
  bytes : readBuf ++ script.flatMap AtRead.bytes = wire S frames

/-- What a call does when `frames` are to come and `cancels` cancellations are. -/
inductive Served (S : Serde) : List Frame → Nat → Call × Bytes × List AtRead → Prop
  | cancelled {frames : List Frame} {readBuf : Bytes} {script : List AtRead} (k : Nat)
      (left : Remaining S frames readBuf script) :
      Served S frames (script.count .cancelled + 1)
        (⟨none, List.replicate k .awaited⟩, readBuf, script)
  | frame {f : Frame} {frames : List Frame} {readBuf b : Bytes} {script : List AtRead} (k : Nat)
      (left : Remaining S frames readBuf script) (encoded : f.encode S = .ok b) :
      Served S (f :: frames) (script.count .cancelled)
        (⟨some (.ok f), List.replicate k .awaited ++ [.took b.length]⟩, readBuf, script)
  | closed (k : Nat) :
      Served S [] 0 (⟨some (.error .connectionClosed), List.replicate k .awaited⟩, [], [])

theorem Served.after {S : Serde} {frames : List Frame} {cancels : Nat}
    {out : Call × Bytes × List AtRead} (h : Served S frames cancels out) :
    Served S frames cancels (out.1.after .awaited, out.2) := by
  cases h with
  | cancelled k left => exact .cancelled (k + 1) left
  | frame k left encoded => exact .frame (k + 1) left encoded
  | closed k => exact .closed (k + 1)

/-- With nothing to come a call can only be cancelled or see the end of the stream. -/
theorem recvCall_served_nil {S : Serde} {buf : Bytes} {script : List AtRead}
    (h : Remaining S [] buf script) :
    Served S [] (script.count .cancelled) (recvCall S buf script) := by
  obtain ⟨hbuf, hscript⟩ : buf = [] ∧ script.flatMap AtRead.bytes = [] := by
    simpa only [wire_nil, List.append_eq_nil_iff] using h.bytes
  have hempty : [] ++ frameBytes .heartbeat [] = frameBytes .heartbeat [] := List.nil_append _
  obtain ⟨hnil, hcons⟩ := recvCall_incomplete S (Nat.zero_le _)
    (by simp [frameBytes, magicBytes]) hempty
  subst hbuf
  cases script with
  | nil =>
    rw [hnil]
    exact .closed 1
  | cons r script =>
    have hr := h.sound r List.mem_cons_self
    have hbr : r.bytes = [] := by
      rw [List.flatMap_cons, List.append_eq_nil_iff] at hscript
      exact hscript.1
    cases r with
    | cancelled =>
      rw [(hcons script).1, List.count_cons_self]
      refine .cancelled 1 ⟨?_, ?_⟩
      · exact fun r' hr' => h.sound r' (List.mem_cons_of_mem _ hr')
      · exact h.bytes
    | returns read =>
      cases read with
      | error e => exact absurd hr id
      | ok b => exact absurd hbr hr

/-- **What one call does.** It is cancelled with everything it has read kept in the buffer, or it returns
    the next frame and leaves the bytes after it, or it sees the end of the stream. -/
theorem recvCall_served {S : Serde} {frames : List Frame} {buf : Bytes} {script : List AtRead}
    (hf : ∀ f ∈ frames, DecodesBack S f) (h : Remaining S frames buf script) :
    Served S frames (script.count .cancelled) (recvCall S buf script) := by
  cases frames with
  | nil => exact recvCall_served_nil h
  | cons f frames =>
    obtain ⟨p, hp, hdec⟩ := hf f List.mem_cons_self
    have henc : f.encode S = .ok (frameBytes f.msgType p) := by rw [encode_eq, hp]; rfl
    have hwire : wire S (f :: frames) = frameBytes f.msgType p ++ wire S frames := by
      rw [wire_cons, henc]; rfl
    have hlen := wirePayload_length_le hp
    -- a buffer that holds the whole frame
    have complete : ∀ rest script, (∀ r ∈ script, r.Sound) →
        rest ++ script.flatMap AtRead.bytes = wire S frames →
        Served S (f :: frames) (script.count .cancelled)
          (recvCall S (frameBytes f.msgType p ++ rest) script) := by
      intro rest script hsound hrest
      rw [recvCall_complete S f.msgType p rest script hlen, hdec]
      exact .frame 0 ⟨hsound, hrest⟩ henc
    induction script generalizing buf with
    | nil =>
      have hbuf := h.bytes
      rw [List.flatMap_nil, List.append_nil, hwire] at hbuf
      rw [hbuf]
      exact complete _ [] h.sound (List.append_nil _)
    | cons r script ih =>
      have hsound : ∀ r' ∈ script, r'.Sound := fun r' hr' => h.sound r' (List.mem_cons_of_mem _ hr')
      have hbytes := h.bytes
      rw [hwire] at hbytes
      rcases List.append_eq_append_iff.mp hbytes with ⟨more, hfr, hmore⟩ | ⟨rest, hfr, hrest⟩
      · by_cases hm : more = []
        · -- the buffer ends exactly at the end of the frame
          subst hm
          rw [List.append_nil] at hfr
          have := complete [] (r :: script) h.sound (by simpa using hmore)
          rwa [List.append_nil, hfr] at this
        · obtain ⟨-, hcons⟩ := recvCall_incomplete S hlen hm hfr.symm
          have hr := h.sound r List.mem_cons_self
          cases r with
          | cancelled =>
            rw [(hcons script).1, List.count_cons_self]
            refine .cancelled 1 ⟨hsound, ?_⟩
            exact h.bytes
          | returns read =>
            cases read with
            | error e => exact absurd hr id
            | ok b =>
              rw [(hcons script).2 b hr, List.count_cons_of_ne (by simp)]
              apply Served.after
              apply ih
              refine ⟨hsound, ?_⟩
              rw [List.append_assoc, ← h.bytes]
              rfl
      · rw [hfr]
        exact complete rest (r :: script) h.sound hrest.symm

/-! ## Successive calls -/

/-- The size of the frame a call returned. -/
def Call.own (S : Serde) (call : Call) : List Nat :=
  match call.result with
  | some (.ok f) => [((f.encode S).toOption.getD []).length]
  | _ => []

/-- A call that only awaited and took out the frame it returned. -/
structure Call.Exact (S : Serde) (call : Call) : Prop where
  turns : ∀ turn ∈ call.turns, turn = .awaited ∨ ∃ total, turn = .took total
  taken : call.taken = call.own S

theorem Served.exact {S : Serde} {frames : List Frame} {cancels : Nat}
    {out : Call × Bytes × List AtRead} (h : Served S frames cancels out) : out.1.Exact S := by
  cases h with
  | cancelled k _ =>
    refine ⟨?_, ?_⟩
    · intro turn hturn
      exact .inl (List.eq_of_mem_replicate hturn)
    · simp [Call.taken, Call.own]
  | frame k _ encoded =>
    refine ⟨?_, ?_⟩
    · intro turn hturn
      rcases List.mem_append.mp hturn with h | h
      · exact .inl (List.eq_of_mem_replicate h)
      · exact .inr ⟨_, List.mem_singleton.mp h⟩
    · simp [Call.taken, Call.own, encoded, Except.toOption]
  | closed k =>
    refine ⟨?_, ?_⟩
    · intro turn hturn
      exact .inl (List.eq_of_mem_replicate hturn)
    · simp [Call.taken, Call.own]

/-- What is to come after a call: the frames after the one it returned. -/
theorem Served.remaining {S : Serde} {frames : List Frame} {cancels : Nat}
    {out : Call × Bytes × List AtRead} (h : Served S frames cancels out) :
    Remaining S (frames.drop out.1.result.toList.length) out.2.1 out.2.2 := by
  cases h with
  | cancelled k left => exact left
  | frame k left _ => exact left
  | closed k => exact ⟨by simp, rfl⟩

theorem filterMap_result_cons (call : Call) (calls : List Call) :
    (call :: calls).filterMap Call.result = call.result.toList ++ calls.filterMap Call.result := by
  cases hres : call.result with
  | none => rw [List.filterMap_cons_none hres]; rfl
  | some r => rw [List.filterMap_cons_some hres]; rfl

/-- Any number of calls: each is exact, and what they leave is the encodings of the frames after those
    they returned. -/
theorem recvCalls_remaining {S : Serde} (n : Nat) {frames : List Frame} {buf : Bytes}
    {script : List AtRead} (hf : ∀ f ∈ frames, DecodesBack S f) (h : Remaining S frames buf script) :
    (∀ call ∈ recvCalls S n buf script, call.Exact S) ∧
      Remaining S (frames.drop ((recvCalls S n buf script).filterMap Call.result).length)
        (recvState S n buf script).1 (recvState S n buf script).2 := by
  induction n generalizing frames buf script with
  | zero => exact ⟨by simp [recvCalls], h⟩
  | succ n ih =>
    have hserved := recvCall_served hf h
    obtain ⟨hexact, hleft⟩ := ih (fun f hmem => hf f (List.mem_of_mem_drop hmem)) hserved.remaining
    refine ⟨?_, ?_⟩
    · intro call hcall
      rw [recvCalls, List.mem_cons] at hcall
      rcases hcall with rfl | hcall
      · exact hserved.exact
      · exact hexact call hcall
    · rw [List.drop_drop] at hleft
      rw [recvCalls, filterMap_result_cons, List.length_append]
      exact hleft

/-- As many calls as there are frames and cancellations, and one more, return the frames and then see the
    end of the stream. -/
theorem recvCalls_results {S : Serde} (n : Nat) {frames : List Frame} {buf : Bytes}
    {script : List AtRead} (hn : frames.length + script.count .cancelled + 1 = n)
    (hf : ∀ f ∈ frames, DecodesBack S f) (h : Remaining S frames buf script) :
    (recvCalls S n buf script).filterMap Call.result =
      frames.map .ok ++ [.error .connectionClosed] := by
  induction n generalizing frames buf script with
  | zero => omega
  | succ n ih =>
    have hserved := recvCall_served hf h
    rw [recvCalls]
    generalize script.count .cancelled = cancels at hn hserved
    generalize recvCall S buf script = out at hserved
    cases hserved with
    | cancelled k left =>
      rw [filterMap_result_cons]
      exact ih (by omega) hf left
    | frame k left _ =>
      rw [filterMap_result_cons]
      rw [ih (by rw [List.length_cons] at hn; omega)
        (fun f hmem => hf f (List.mem_cons_of_mem _ hmem)) left]
      rfl
    | closed k =>
      have hzero : n = 0 := by
        rw [List.length_nil] at hn
        omega
      subst hzero
      rfl

/-- **Successive calls.** Frames whose payloads decode back, however their encodings are split into reads
    and however often a call is cancelled at an await, are returned in order, and then the end of the
    stream. No call skips bytes or runs over the limit, each takes out of the buffer what its own frame was
    encoded to, and at every moment what is left is the encodings of the frames not yet returned. -/
theorem recvCalls_exact (S : Serde) (frames : List Frame) (script : List AtRead)
    (hf : ∀ f ∈ frames, DecodesBack S f) (hs : ∀ r ∈ script, r.Sound)
    (hb : script.flatMap AtRead.bytes = wire S frames) :
    (recvCalls S (frames.length + script.count .cancelled + 1) [] script).filterMap Call.result =
      frames.map .ok ++ [.error .connectionClosed] ∧
    ∀ n, (∀ call ∈ recvCalls S n [] script, call.Exact S) ∧
      (recvState S n [] script).1 ++ (recvState S n [] script).2.flatMap AtRead.bytes =
        wire S (frames.drop ((recvCalls S n [] script).filterMap Call.result).length) := by
  have h : Remaining S frames [] script := ⟨hs, hb⟩
  refine ⟨recvCalls_results _ rfl hf h, fun n => ?_⟩
  obtain ⟨hexact, hleft⟩ := recvCalls_remaining n hf h
  exact ⟨hexact, hleft.bytes⟩

/-- A session is ended, two bytes of data and a heartbeat follow: the first call is cancelled after half of
    the first header, the third after a part of the second frame. -/
theorem recvCalls_exact_cancelled :
    ∃ (S : Serde) (f g : Frame) (script : List AtRead),
      wire S [f, g, .heartbeat] = script.flatMap AtRead.bytes ∧ script.count .cancelled = 2 ∧
      (recvCalls S 6 [] script).filterMap Call.result =
        [.ok f, .ok g, .ok .heartbeat, .error .connectionClosed] := by
  let m : JsonMessage := .sessionDestroy ⟨⟨7⟩⟩
  let S : Serde := ⟨fun m' => if m' = m then .ok [123, 125] else .error "",
    fun _ b => if b = [123, 125] then .ok m else .error ""⟩
  let g : Frame := .binary (.streamData ⟨⟨3⟩, 0, [5, 6]⟩)
  let bytes := wire S [.json m, g, .heartbeat]
  let script : List AtRead := [.returns (.ok (bytes.take 5)), .cancelled,
    .returns (.ok ((bytes.drop 5).take 15)), .cancelled, .returns (.ok (bytes.drop 20))]
  have hf : ∀ f ∈ [.json m, g, .heartbeat], DecodesBack S f := by
    simp only [List.forall_mem_cons, List.not_mem_nil, false_implies, implies_true, and_true]
    exact ⟨⟨[123, 125], rfl, rfl⟩, ⟨_, rfl, rfl⟩, ⟨[], rfl, rfl⟩⟩
  have hs : ∀ r ∈ script, r.Sound := by
    simp only [script, List.forall_mem_cons, List.not_mem_nil, false_implies, implies_true, and_true]
    refine ⟨?_, trivial, ?_, trivial, ?_⟩
    · exact List.cons_ne_nil _ _
    · exact List.cons_ne_nil _ _
    · exact List.cons_ne_nil _ _
  have hb : script.flatMap AtRead.bytes = wire S [.json m, g, .heartbeat] := rfl
  exact ⟨S, .json m, g, script, hb.symm, rfl, (recvCalls_exact S _ script hf hs hb).1⟩

end RemoteX11.Transport
