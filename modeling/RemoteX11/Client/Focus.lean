/-
  Which application is in the foreground (`audioout/focus.rs`, the setup reply of `audioout/x11wire.rs`, the
  two arms of `pump_local_x11_connection` in `proxy.rs`).

  The setup request travels down to the local X server and the reply up; the byte order of the one is what the
  other is read in. `SetupPump` is the two arms with the server between them, step by step, and `registered_eq`
  says for every interleaving and every way the bytes are cut which resource range is registered: the server
  does not answer a request it has not got, so the order stands when the first byte of the reply arrives.
  `foreground_iff` then says what a focused window is traced to.
-/
import RemoteX11.Client.Setup
import RemoteX11.Lib.Run
import RemoteX11.Lib.Table
import RemoteX11.Protocol.Messages

namespace RemoteX11.Client

open RemoteX11.Lib RemoteX11.Recode RemoteX11.Protocol

/-! ## The setup reply -/

/-- `u32`. -/
def ByteOrder.u32 (order : ByteOrder) (bytes : Bytes) (at_ : Nat) : Option Nat :=
  (slice bytes at_ (at_ + 4)).map fun quad =>
    match order with
    | .littleEndian => leNat quad
    | .bigEndian => beNat quad

/-- `setup_reply_len`. -/
def setupReplyLen (bytes : Bytes) (order : ByteOrder) : Option Nat :=
  let prefixLen := 8
  if bytes.length < prefixLen then none
  else if bytes[0]? ≠ some 1 then none
  else (order.u16 bytes 6).map fun length => prefixLen + length * 4

/-- `setup_reply_range`. -/
def setupReplyRange (bytes : Bytes) (order : ByteOrder) : Option (Nat × Nat) :=
  let prefixLen := 8
  let baseAt := prefixLen + 4
  let maskAt := prefixLen + 8
  let needed := maskAt + 4
  if bytes.length < needed then none
  else if bytes[0]? ≠ some 1 then none
  else do
    let base ← order.u32 bytes baseAt
    let mask ← order.u32 bytes maskAt
    some (base, mask)

structure SetupReplyWatcher where
  buffer : Bytes
  range : Option (Nat × Nat)
  finished : Bool

namespace SetupReplyWatcher

def new : SetupReplyWatcher := ⟨[], none, false⟩

/-- `observe`: the watcher afterwards and the range it reports. -/
def observe (w : SetupReplyWatcher) (chunk : Bytes) (order : ByteOrder) :
    SetupReplyWatcher × Option (Nat × Nat) :=
  if w.finished then (w, none)
  else
    let buffer := w.buffer ++ chunk
    match setupReplyLen buffer order with
    | none => ({ w with buffer := buffer, finished := decide (maxSetupBytes < buffer.length) }, none)
    | some len =>
      if buffer.length < len then ({ w with buffer := buffer }, none)
      else (⟨buffer, setupReplyRange buffer order, true⟩, setupReplyRange buffer order)

end SetupReplyWatcher

/-! ## What the head of a stream says -/

theorem slice_append {bs : Bytes} {i j : Nat} (more : Bytes) (hij : i ≤ j) (h : j ≤ bs.length) :
    slice (bs ++ more) i j = slice bs i j := by
  rw [slice_of_le hij h, slice_of_le hij (by rw [List.length_append]; omega),
    List.drop_append_of_le_length (by omega), List.take_append_of_le_length (by simp; omega)]

variable {order : ByteOrder} {seen : Bytes} {len : Nat}

/-- The prefix says how long the reply is, or that there is none. -/
theorem setupReplyLen_append (more : Bytes) (h : 8 ≤ seen.length) :
    setupReplyLen (seen ++ more) order = setupReplyLen seen order := by
  have hhead : (seen ++ more)[0]? = seen[0]? := List.getElem?_append_left (by omega)
  have hfield : order.u16 (seen ++ more) 6 = order.u16 seen 6 := by
    rw [ByteOrder.u16, slice_append more (by omega) (by omega), ByteOrder.u16]
  have hlen : ¬ seen.length < 8 := by omega
  have hlen' : ¬ (seen ++ more).length < 8 := by
    rw [List.length_append]
    omega
  simp only [setupReplyLen, if_neg hlen, if_neg hlen', hhead, hfield]

theorem setupReplyLen_le (h : setupReplyLen seen order = some len) : 8 ≤ seen.length := by
  refine Nat.le_of_not_lt fun hshort => ?_
  rw [setupReplyLen, if_pos hshort] at h
  cases h

theorem u32_append {at_ : Nat} (more : Bytes) (h : at_ + 4 ≤ seen.length) :
    order.u32 (seen ++ more) at_ = order.u32 seen at_ := by
  rw [ByteOrder.u32, slice_append more (by omega) h, ByteOrder.u32]

/-- The fixed part says what the range is. -/
theorem setupReplyRange_append (more : Bytes) (h : 20 ≤ seen.length) :
    setupReplyRange (seen ++ more) order = setupReplyRange seen order := by
  have hhead : (seen ++ more)[0]? = seen[0]? := List.getElem?_append_left (by omega)
  have hlen : ¬ seen.length < 8 + 8 + 4 := by omega
  have hlen' : ¬ (seen ++ more).length < 8 + 8 + 4 := by
    rw [List.length_append]
    omega
  have hbase : order.u32 (seen ++ more) (8 + 4) = order.u32 seen (8 + 4) := u32_append more (by omega)
  have hmask : order.u32 (seen ++ more) (8 + 8) = order.u32 seen (8 + 8) := u32_append more (by omega)
  simp only [setupReplyRange, if_neg hlen, if_neg hlen', hhead, hbase, hmask]

/-- The reply at the head of the stream is whole. -/
def ReplyWhole (order : ByteOrder) (seen : Bytes) : Prop :=
  ∃ len, setupReplyLen seen order = some len ∧ len ≤ seen.length

/-- The range in a reply that is whole. -/
def wholeReply (order : ByteOrder) (seen : Bytes) : Option (Nat × Nat) :=
  (setupReplyLen seen order).bind fun len =>
    if len ≤ seen.length then setupReplyRange seen order else none

theorem wholeReply_of_whole (h : ReplyWhole order seen) : wholeReply order seen = setupReplyRange seen order := by
  obtain ⟨len, hlen, hle⟩ := h
  rw [wholeReply, hlen, Option.bind_some, if_pos hle]

theorem wholeReply_of_not (h : ¬ ReplyWhole order seen) : wholeReply order seen = none := by
  cases hlen : setupReplyLen seen order with
  | none => rw [wholeReply, hlen, Option.bind_none]
  | some len => rw [wholeReply, hlen, Option.bind_some, if_neg fun hle => h ⟨len, hlen, hle⟩]

theorem ReplyWhole.append (h : ReplyWhole order seen) (more : Bytes) : ReplyWhole order (seen ++ more) := by
  obtain ⟨len, hlen, hle⟩ := h
  refine ⟨len, ?_, by rw [List.length_append]; omega⟩
  rw [setupReplyLen_append more (setupReplyLen_le hlen), hlen]

/-- A watcher that has been given the bytes `seen`, in any pieces. -/
structure ReplyWatching (order : ByteOrder) (w : SetupReplyWatcher) (seen : Bytes) : Prop where
  waiting : w.finished = false → w.buffer = seen ∧ ¬ ReplyWhole order seen
  /-- it gives up on a refused setup only -/
  finished : w.finished = true → ReplyWhole order seen ∨ (8 ≤ seen.length ∧ setupReplyLen seen order = none)

theorem replyWatching_new : ReplyWatching order SetupReplyWatcher.new [] := by
  constructor
  · refine fun _ => ⟨rfl, ?_⟩
    rintro ⟨len, hlen, -⟩
    exact absurd (setupReplyLen_le hlen) (by decide)
  · intro h
    cases h

/-- What one call reports, and what it leaves. -/
theorem observe_replyWatching {w : SetupReplyWatcher} (h : ReplyWatching order w seen) (chunk : Bytes) :
    ReplyWatching order (w.observe chunk order).1 (seen ++ chunk) ∧
      ((w.observe chunk order).2 = none ∧ (ReplyWhole order (seen ++ chunk) → ReplyWhole order seen) ∨
        (w.observe chunk order).2 = setupReplyRange (seen ++ chunk) order ∧
          ReplyWhole order (seen ++ chunk) ∧ ¬ ReplyWhole order seen) := by
  unfold SetupReplyWatcher.observe
  cases hdone : w.finished with
  | true =>
    simp only [if_true]
    refine ⟨⟨fun hwait => ?_, fun _ => ?_⟩, .inl ⟨trivial, fun hwhole => ?_⟩⟩
    · rw [hdone] at hwait
      cases hwait
    · obtain hwhole | ⟨hlen, hnone⟩ := h.finished hdone
      · exact .inl (hwhole.append chunk)
      · refine .inr ⟨by rw [List.length_append]; omega, ?_⟩
        rw [setupReplyLen_append chunk hlen, hnone]
    · obtain hwhole' | ⟨hlen, hnone⟩ := h.finished hdone
      · exact hwhole'
      · obtain ⟨len, hlen', -⟩ := hwhole
        rw [setupReplyLen_append chunk hlen, hnone] at hlen'
        cases hlen'
  | false =>
    obtain ⟨hbuffer, hnot⟩ := h.waiting hdone
    simp only [Bool.false_eq_true, if_false, hbuffer]
    cases hlen : setupReplyLen (seen ++ chunk) order with
    | none =>
      have hnot' : ¬ ReplyWhole order (seen ++ chunk) := by
        rintro ⟨len, hsome, -⟩
        rw [hlen] at hsome
        cases hsome
      refine ⟨⟨fun _ => ⟨rfl, hnot'⟩, fun hgive => .inr ⟨?_, hlen⟩⟩, .inl ⟨rfl, fun hwhole => absurd hwhole hnot'⟩⟩
      -- the limit is far beyond the prefix
      have hlimit : maxSetupBytes < (seen ++ chunk).length := of_decide_eq_true hgive
      unfold maxSetupBytes at hlimit
      omega
    | some len =>
      by_cases hshort : (seen ++ chunk).length < len
      · have hnot' : ¬ ReplyWhole order (seen ++ chunk) := by
          rintro ⟨len', hsome, hle⟩
          rw [hlen] at hsome
          obtain rfl := Option.some.inj hsome
          omega
        simp only [if_pos hshort]
        refine ⟨⟨fun _ => ⟨rfl, hnot'⟩, fun hgive => ?_⟩, .inl ⟨trivial, fun hwhole => absurd hwhole hnot'⟩⟩
        cases hgive
      · have hwhole : ReplyWhole order (seen ++ chunk) := ⟨len, hlen, by omega⟩
        simp only [if_neg hshort]
        refine ⟨⟨fun hwait => ?_, fun _ => .inl hwhole⟩, .inr ⟨trivial, hwhole, hnot⟩⟩
        cases hwait

/-! ## The two arms of the pump -/

/-- Where the downlink arm stands. -/
inductive Downlink where
  | idle
  /-- it has recorded the authorization and is about to record the byte order -/
  | announcing (out : Bytes)
  | writing (rest : Bytes)

/-- What the arm holds that the local X server has not got. -/
def Downlink.pending : Downlink → Bytes
  | .idle => []
  | .announcing out => out
  | .writing rest => rest

/-- The two arms of one connection and the local X server between them. -/
structure SetupPump where
  setupRequest : SetupRequestWatcher
  setupReply : SetupReplyWatcher
  setupOrder : Option ByteOrder
  authorization : Option Authorization
  downlink : Downlink
  /-- the bytes that the server has got -/
  written : Bytes
  /-- the number of bytes that it has sent, and of those that the uplink arm has read -/
  sent : Nat
  forwarded : Nat
  /-- the range in the index, as a base and a mask -/
  registered : Option (Nat × Nat)

inductive SetupPumpEvent where
  /-- the downlink arm takes a payload of the relay, expanded -/
  | recv (out : Bytes)
  | announce
  /-- `write_all` gets on by some bytes -/
  | write (n : Nat)
  /-- the server sends some bytes -/
  | answer (n : Nat)
  /-- the uplink arm reads some bytes -/
  | read (n : Nat)

namespace SetupPump

def init : SetupPump := ⟨.new, .new, none, none, .idle, [], 0, 0, none⟩

/-- All bytes that the downlink arm has taken. -/
def received (s : SetupPump) : Bytes := s.written ++ s.downlink.pending

/-- The uplink arm on a chunk. -/
def observeReply (s : SetupPump) (chunk : Bytes) : SetupPump :=
  match s.setupOrder with
  | none => s
  | some order =>
    let (setupReply, range) := s.setupReply.observe chunk order
    match range with
    | none => { s with setupReply := setupReply }
    | some range => { s with setupReply := setupReply, registered := some range }

/-- `answers` is all that the server will send; it sends nothing before it has the whole request. -/
def step (tryParse : Bytes → Option (SetupRequest × Bytes)) (answers : Bytes) (s : SetupPump) :
    SetupPumpEvent → Option SetupPump
  | .recv out =>
    match s.downlink with
    | .idle =>
      let (setupRequest, auth) := s.setupRequest.observe tryParse out
      match auth with
      | some auth =>
        some { s with setupRequest := setupRequest, authorization := some auth, downlink := .announcing out }
      | none => some { s with setupRequest := setupRequest, downlink := .writing out }
    | _ => none
  | .announce =>
    match s.downlink with
    | .announcing out => some { s with setupOrder := s.setupRequest.order, downlink := .writing out }
    | _ => none
  | .write n =>
    match s.downlink with
    | .writing rest =>
      some { s with
        written := s.written ++ rest.take n
        downlink := if rest.length ≤ n then .idle else .writing (rest.drop n) }
    | _ => none
  | .answer n =>
    if wholeRequest s.written ≠ none ∧ s.sent + n ≤ answers.length then some { s with sent := s.sent + n }
    else none
  | .read n =>
    if 0 < n ∧ s.forwarded + n ≤ s.sent then
      let chunk := (answers.drop s.forwarded).take n
      some { s.observeReply chunk with forwarded := s.forwarded + n }
    else none

end SetupPump

/-! ## Every interleaving -/

variable {tryParse : Bytes → Option (SetupRequest × Bytes)}

/-- The byte order of the request in a stream, if it carries an authorization. -/
def parsedOrder (tryParse : Bytes → Option (SetupRequest × Bytes)) (stream : Bytes) : Option ByteOrder :=
  (wholeRequest stream).bind fun request =>
    (Authorization.fromSetupRequest tryParse request).bind fun _ => ByteOrder.fromRequest request

namespace SetupPump

/-- What the downlink arm knows. -/
structure Learned (tryParse : Bytes → Option (SetupRequest × Bytes)) (s : SetupPump) : Prop where
  watching : Watching s.setupRequest s.received
  authorization : s.authorization = (wholeRequest s.received).bind (Authorization.fromSetupRequest tryParse)
  /-- the order is recorded before the first byte of the request's last payload is written -/
  announcing : ∀ out, s.downlink = .announcing out →
    s.setupOrder = none ∧ wholeRequest s.written = none ∧ s.authorization ≠ none
  order : (∀ out, s.downlink ≠ .announcing out) → s.setupOrder = parsedOrder tryParse s.received

/-- What the uplink arm knows. -/
structure Read (answers : Bytes) (s : SetupPump) : Prop where
  sent : s.forwarded ≤ s.sent ∧ s.sent ≤ answers.length
  request : 0 < s.sent → wholeRequest s.written ≠ none
  reply : ∀ order, s.setupOrder = some order → ReplyWatching order s.setupReply (answers.take s.forwarded)
  waiting : s.setupOrder = none → s.setupReply = .new
  registered : s.registered = s.setupOrder.bind fun order => wholeReply order (answers.take s.forwarded)

variable {answers : Bytes} {s : SetupPump}

theorem learned_init : init.Learned tryParse where
  watching := watching_new
  authorization := rfl
  announcing := by
    intro out hout
    cases hout
  order _ := rfl

theorem read_init : init.Read answers where
  sent := ⟨Nat.le_refl _, Nat.zero_le _⟩
  request h := absurd h (Nat.lt_irrefl 0)
  reply := by
    intro order horder
    cases horder
  waiting _ := rfl
  registered := rfl

/-- A payload that reports no authorization changes nothing of the order. -/
theorem parsedOrder_append {seen out : Bytes} {w : SetupRequestWatcher} (h : Watching w seen)
    (hreport : (w.observe tryParse out).2 = none) :
    parsedOrder tryParse (seen ++ out) = parsedOrder tryParse seen := by
  have hobserve := (observe_watching tryParse h out).2
  rw [hreport] at hobserve
  unfold parsedOrder
  cases hseen : wholeRequest seen with
  | some request => rw [wholeRequest_append out hseen]
  | none =>
    rw [if_pos hseen] at hobserve
    cases hnew : wholeRequest (seen ++ out) with
    | none => rfl
    | some request =>
      rw [hnew, Option.bind_some] at hobserve
      rw [Option.bind_some, ← hobserve, Option.bind_none, Option.bind_none]

theorem authorization_append {seen out : Bytes} {w : SetupRequestWatcher} (h : Watching w seen)
    (hreport : (w.observe tryParse out).2 = none) :
    (wholeRequest (seen ++ out)).bind (Authorization.fromSetupRequest tryParse) =
      (wholeRequest seen).bind (Authorization.fromSetupRequest tryParse) := by
  have hobserve := (observe_watching tryParse h out).2
  rw [hreport] at hobserve
  cases hseen : wholeRequest seen with
  | some request => rw [wholeRequest_append out hseen]
  | none =>
    rw [if_pos hseen] at hobserve
    rw [← hobserve, Option.bind_none]

@[simp] theorem observeReply_fields (chunk : Bytes) :
    (s.observeReply chunk).setupRequest = s.setupRequest ∧ (s.observeReply chunk).setupOrder = s.setupOrder ∧
      (s.observeReply chunk).authorization = s.authorization ∧ (s.observeReply chunk).downlink = s.downlink ∧
      (s.observeReply chunk).written = s.written ∧ (s.observeReply chunk).sent = s.sent := by
  unfold observeReply
  split
  · simp
  · dsimp only
    split <;> simp

theorem step_answer {n : Nat} {t : SetupPump} (h : s.step tryParse answers (.answer n) = some t) :
    (wholeRequest s.written ≠ none ∧ s.sent + n ≤ answers.length) ∧ { s with sent := s.sent + n } = t := by
  rw [step, Option.ite_none_right_eq_some] at h
  exact ⟨h.1, Option.some.inj h.2⟩

theorem step_read {n : Nat} {t : SetupPump} (h : s.step tryParse answers (.read n) = some t) :
    (0 < n ∧ s.forwarded + n ≤ s.sent) ∧
      { s.observeReply ((answers.drop s.forwarded).take n) with forwarded := s.forwarded + n } = t := by
  rw [step, Option.ite_none_right_eq_some] at h
  exact ⟨h.1, Option.some.inj h.2⟩

/-- The downlink arm takes a payload. -/
theorem Learned.recv (h : s.Learned tryParse) {out : Bytes} {t : SetupPump}
    (hstep : s.step tryParse answers (.recv out) = some t) : t.Learned tryParse := by
  unfold step at hstep
  cases harm : s.downlink with
  | announcing out => simp [harm] at hstep
  | writing rest => simp [harm] at hstep
  | idle =>
    have hreceived : s.received = s.written := by simp [received, harm, Downlink.pending]
    have hwatching := h.watching
    rw [hreceived] at hwatching
    obtain ⟨hcalled, hreport⟩ := observe_watching tryParse hwatching out
    have horder : s.setupOrder = parsedOrder tryParse s.written := by
      rw [h.order (by simp [harm]), hreceived]
    have hauthorization := h.authorization
    rw [hreceived] at hauthorization
    simp only [harm] at hstep
    cases hauth : (s.setupRequest.observe tryParse out).2 with
    | some auth =>
      simp only [hauth, Option.some.injEq] at hstep
      subst hstep
      rw [hauth] at hreport
      have hnew : wholeRequest s.written = none := by
        by_contra hold
        rw [if_neg hold] at hreport
        cases hreport
      rw [if_pos hnew] at hreport
      refine ⟨hcalled, ?_, fun out' hout' => ⟨?_, hnew, by simp⟩, fun hno => absurd rfl (hno out)⟩
      · exact hreport
      · simp only [horder, parsedOrder, hnew, Option.bind_none]
    | none =>
      simp only [hauth, Option.some.injEq] at hstep
      subst hstep
      refine ⟨hcalled, ?_, fun out' hout' => ?_, fun _ => ?_⟩
      · exact hauthorization.trans (authorization_append hwatching hauth).symm
      · cases hout'
      · exact horder.trans (parsedOrder_append hwatching hauth).symm

theorem Learned.announce (h : s.Learned tryParse) {t : SetupPump}
    (hstep : s.step tryParse answers .announce = some t) : t.Learned tryParse := by
  unfold step at hstep
  cases harm : s.downlink with
  | idle => simp [harm] at hstep
  | writing rest => simp [harm] at hstep
  | announcing out =>
    simp only [harm, Option.some.injEq] at hstep
    subst hstep
    have hreceived : s.received = s.written ++ out := by simp [received, harm, Downlink.pending]
    have hwatching := h.watching
    have hauthorization := h.authorization
    rw [hreceived] at hwatching hauthorization
    refine ⟨hwatching, hauthorization, fun out' hout' => ?_, fun _ => ?_⟩
    · cases hout'
    · -- the report was the authorization of the whole request
      obtain ⟨-, -, hsome⟩ := h.announcing out harm
      show s.setupRequest.order = parsedOrder tryParse (s.written ++ out)
      rw [hwatching.order, parsedOrder]
      cases hwhole : wholeRequest (s.written ++ out) with
      | none => rfl
      | some request =>
        rw [hwhole, Option.bind_some] at hauthorization
        rw [hauthorization] at hsome
        obtain ⟨auth, hauth⟩ := Option.ne_none_iff_exists'.mp hsome
        rw [Option.bind_some, Option.bind_some, hauth, Option.bind_some]

theorem Learned.write (h : s.Learned tryParse) {n : Nat} {t : SetupPump}
    (hstep : s.step tryParse answers (.write n) = some t) : t.Learned tryParse := by
  unfold step at hstep
  cases harm : s.downlink with
  | idle => simp [harm] at hstep
  | announcing out => simp [harm] at hstep
  | writing rest =>
    simp only [harm, Option.some.injEq] at hstep
    have hreceived : t.received = s.received := by
      subst hstep
      by_cases hall : rest.length ≤ n
      · simp [received, harm, Downlink.pending, hall, List.take_of_length_le hall]
      · simp [received, harm, Downlink.pending, hall]
    have hidle : ∀ out, t.downlink ≠ .announcing out := by
      subst hstep
      intro out
      by_cases hall : rest.length ≤ n <;> simp [hall]
    refine ⟨?_, ?_, fun out hout => absurd hout (hidle out), fun _ => ?_⟩
    · rw [hreceived]
      exact hstep ▸ h.watching
    · rw [hreceived]
      exact hstep ▸ h.authorization
    · rw [hreceived]
      exact hstep ▸ h.order (by simp [harm])

/-- What the other side does leaves the downlink arm alone. -/
theorem Learned.of_eq (h : s.Learned tryParse) {t : SetupPump} (hrequest : t.setupRequest = s.setupRequest)
    (horder : t.setupOrder = s.setupOrder) (hauthorization : t.authorization = s.authorization)
    (hdownlink : t.downlink = s.downlink) (hwritten : t.written = s.written) : t.Learned tryParse := by
  have hreceived : t.received = s.received := by rw [received, hdownlink, hwritten, received]
  refine ⟨?_, ?_, fun out hout => ?_, fun hno => ?_⟩
  · rw [hreceived, hrequest]
    exact h.watching
  · rw [hreceived, hauthorization]
    exact h.authorization
  · rw [horder, hwritten, hauthorization]
    exact h.announcing out (hdownlink ▸ hout)
  · rw [hreceived, horder]
    exact h.order (hdownlink ▸ hno)

theorem Learned.step (h : s.Learned tryParse) {event : SetupPumpEvent} {t : SetupPump}
    (hstep : s.step tryParse answers event = some t) : t.Learned tryParse := by
  cases event with
  | recv out => exact h.recv hstep
  | announce => exact h.announce hstep
  | write n => exact h.write hstep
  | answer n =>
    obtain ⟨-, rfl⟩ := step_answer hstep
    exact h.of_eq rfl rfl rfl rfl rfl
  | read n =>
    obtain ⟨-, rfl⟩ := step_read hstep
    obtain ⟨hrequest, horder, hauthorization, hdownlink, hwritten, -⟩ :=
      s.observeReply_fields ((answers.drop s.forwarded).take n)
    exact h.of_eq hrequest horder hauthorization hdownlink hwritten

/-! ## The uplink arm -/

/-- A chunk is watched in the order of the request. -/
theorem observeReply_read (h : s.Read answers) (n : Nat)
    (hfixed : ∀ order len, setupReplyLen answers order = some len → 20 ≤ len) {order : ByteOrder}
    (horder : s.setupOrder = some order) :
    ReplyWatching order (s.observeReply ((answers.drop s.forwarded).take n)).setupReply
        (answers.take (s.forwarded + n)) ∧
      (s.observeReply ((answers.drop s.forwarded).take n)).registered =
        wholeReply order (answers.take (s.forwarded + n)) := by
  have hregistered := h.registered
  rw [horder, Option.bind_some] at hregistered
  rw [List.take_add]
  obtain ⟨hwatching, hreport⟩ :=
    observe_replyWatching (h.reply order horder) ((answers.drop s.forwarded).take n)
  unfold observeReply
  simp only [horder]
  obtain ⟨hnone, hbefore⟩ | ⟨hsome, hwhole, hnot⟩ := hreport
  · simp only [hnone]
    refine ⟨hwatching, ?_⟩
    by_cases hwhole : ReplyWhole order (answers.take s.forwarded)
    · -- the fixed part has been read with the reply
      obtain ⟨len, hlen, hle⟩ := hwhole
      have hlong : 20 ≤ len := by
        refine hfixed order len ?_
        rw [← hlen, ← setupReplyLen_append (answers.drop s.forwarded) (setupReplyLen_le hlen),
          List.take_append_drop]
      have hwhole : ReplyWhole order (answers.take s.forwarded) := ⟨len, hlen, hle⟩
      rw [hregistered, wholeReply_of_whole hwhole, wholeReply_of_whole (hwhole.append _),
        setupReplyRange_append _ (by omega)]
    · rw [hregistered, wholeReply_of_not hwhole, wholeReply_of_not fun hnew => hwhole (hbefore hnew)]
  · rw [wholeReply_of_whole hwhole, ← hsome]
    cases hrange : ((s.setupReply.observe ((answers.drop s.forwarded).take n) order).2) with
    | some range => exact ⟨hwatching, rfl⟩
    | none =>
      rw [wholeReply_of_not hnot] at hregistered
      exact ⟨hwatching, hregistered⟩

/-- What the downlink arm does to the bytes leaves the uplink arm alone. -/
theorem Read.of_eq (h : s.Read answers) {t : SetupPump} (hreply : t.setupReply = s.setupReply)
    (horder : t.setupOrder = s.setupOrder) (hsent : t.sent = s.sent) (hforwarded : t.forwarded = s.forwarded)
    (hregistered : t.registered = s.registered)
    (hwritten : wholeRequest s.written ≠ none → wholeRequest t.written ≠ none) : t.Read answers := by
  refine ⟨?_, fun hpos => hwritten (h.request (hsent ▸ hpos)), ?_, ?_, ?_⟩
  · rw [hsent, hforwarded]
    exact h.sent
  · rw [horder, hreply, hforwarded]
    exact h.reply
  · rw [horder, hreply]
    exact h.waiting
  · rw [hregistered, horder, hforwarded]
    exact h.registered

theorem Read.announce (h : s.Read answers) (hlearned : s.Learned tryParse) {t : SetupPump}
    (hstep : s.step tryParse answers .announce = some t) : t.Read answers := by
  unfold SetupPump.step at hstep
  cases harm : s.downlink with
  | idle => simp [harm] at hstep
  | writing rest => simp [harm] at hstep
  | announcing out =>
    simp only [harm, Option.some.injEq] at hstep
    subst hstep
    obtain ⟨horder, hwritten, -⟩ := hlearned.announcing out harm
    -- the server has not got the request, so it has sent nothing
    have hsent : s.sent = 0 := by
      by_contra hpos
      exact h.request (by omega) hwritten
    have hforwarded : s.forwarded = 0 := by
      have := h.sent.1
      omega
    have hregistered : s.registered = none := by rw [h.registered, horder, Option.bind_none]
    refine ⟨h.sent, h.request, fun order _ => ?_, fun _ => h.waiting horder, ?_⟩
    · show ReplyWatching order s.setupReply (answers.take s.forwarded)
      rw [h.waiting horder, hforwarded, List.take_zero]
      exact replyWatching_new
    · show s.registered = s.setupRequest.order.bind fun order => wholeReply order (answers.take s.forwarded)
      rw [hregistered, hforwarded]
      cases s.setupRequest.order <;> rfl

theorem Read.step (h : s.Read answers) (hlearned : s.Learned tryParse)
    (hfixed : ∀ order len, setupReplyLen answers order = some len → 20 ≤ len) {event : SetupPumpEvent} {t : SetupPump}
    (hstep : s.step tryParse answers event = some t) : t.Read answers := by
  cases event with
  | recv out =>
    unfold SetupPump.step at hstep
    cases harm : s.downlink with
    | announcing out => simp [harm] at hstep
    | writing rest => simp [harm] at hstep
    | idle =>
      simp only [harm] at hstep
      split at hstep <;> exact Option.some.inj hstep ▸ h.of_eq rfl rfl rfl rfl rfl id
  | announce => exact h.announce hlearned hstep
  | write n =>
    unfold SetupPump.step at hstep
    cases harm : s.downlink with
    | idle => simp [harm] at hstep
    | announcing out => simp [harm] at hstep
    | writing rest =>
      simp only [harm, Option.some.injEq] at hstep
      subst hstep
      refine h.of_eq rfl rfl rfl rfl rfl fun hwhole => ?_
      obtain ⟨request, hrequest⟩ := Option.ne_none_iff_exists'.mp hwhole
      show wholeRequest (s.written ++ rest.take n) ≠ none
      rw [wholeRequest_append _ hrequest]
      exact Option.some_ne_none request
  | answer n =>
    obtain ⟨⟨hwhole, hle⟩, rfl⟩ := step_answer hstep
    refine ⟨⟨?_, hle⟩, fun _ => hwhole, h.reply, h.waiting, h.registered⟩
    exact Nat.le_trans h.sent.1 (Nat.le_add_right _ _)
  | read n =>
    obtain ⟨⟨-, hle⟩, rfl⟩ := step_read hstep
    obtain ⟨-, horder, -, -, hwritten, hsent⟩ := s.observeReply_fields ((answers.drop s.forwarded).take n)
    refine ⟨⟨hsent ▸ hle, hsent ▸ h.sent.2⟩, fun hpos => ?_, fun order hsome => ?_, fun hnone => ?_, ?_⟩
    · show wholeRequest (s.observeReply _).written ≠ none
      rw [hwritten]
      exact h.request (hsent ▸ hpos)
    · exact (observeReply_read h n hfixed (horder ▸ hsome)).1
    · have hnone : s.setupOrder = none := horder ▸ hnone
      show (s.observeReply _).setupReply = .new
      simp only [observeReply, hnone]
      exact h.waiting hnone
    · show (s.observeReply _).registered = (s.observeReply _).setupOrder.bind _
      rw [horder]
      cases hsome : s.setupOrder with
      | none =>
        have hregistered := h.registered
        rw [hsome, Option.bind_none] at hregistered
        simp only [observeReply, hsome, hregistered, Option.bind_none]
      | some order => exact (observeReply_read h n hfixed hsome).2

/-- **The range of a connection**, after any interleaving of the two arms and the server: it is registered as
    soon as the reply has been read, as the request's own order has it, and nothing else ever is. The request
    is known as soon as it has arrived. -/
theorem registered_eq (hfixed : ∀ order len, setupReplyLen answers order = some len → 20 ≤ len)
    {events : List SetupPumpEvent} (hrun : run (SetupPump.step tryParse answers) init events = some s) :
    s.registered = (parsedOrder tryParse s.received).bind (fun order =>
        wholeReply order (answers.take s.forwarded)) ∧
      s.authorization = (wholeRequest s.received).bind (Authorization.fromSetupRequest tryParse) := by
  obtain ⟨hlearned, hread⟩ : s.Learned tryParse ∧ s.Read answers := by
    refine run_inv_all (I := fun s => s.Learned tryParse ∧ s.Read answers) ?_ ⟨learned_init, read_init⟩ hrun
    exact fun s event t h hstep => ⟨h.1.step hstep, h.2.step h.1 hfixed hstep⟩
  refine ⟨?_, hlearned.authorization⟩
  by_cases harm : ∃ out, s.downlink = .announcing out
  · obtain ⟨out, harm⟩ := harm
    obtain ⟨horder, hwritten, -⟩ := hlearned.announcing out harm
    have hforwarded : s.forwarded = 0 := by
      by_contra hpos
      have := hread.sent.1
      exact hread.request (by omega) hwritten
    rw [hread.registered, horder, hforwarded]
    cases parsedOrder tryParse s.received <;> rfl
  · rw [hread.registered, hlearned.order fun out hout => harm ⟨out, hout⟩]

/-- A setup reply with the range from `0x200000` to `0x3fffff`. -/
def sampleReply : Bytes := [1, 0, 11, 0, 0, 0, 3, 0, 1, 2, 3, 4, 0, 0, 32, 0, 255, 255, 31, 0]

/-- The request and the reply both arrive in pieces. -/
theorem registered_eq_pieces :
    ∃ s, run (SetupPump.step (fun _ => some (⟨[], []⟩, [])) sampleReply) init
        [.recv [108, 0, 11, 0, 0], .write 5, .recv [0, 0, 0, 0, 0, 0, 0], .announce, .write 3, .write 10,
          .answer 12, .read 9, .answer 8, .read 11] = some s ∧ s.registered = some (0x200000, 0x1fffff) := by
  have hfixed : ∀ order len, setupReplyLen sampleReply order = some len → 20 ≤ len := by
    intro order len h
    cases order
    · obtain rfl : 20 = len := Option.some.inj h
      exact Nat.le_refl 20
    · obtain rfl : 8 + 768 * 4 = len := Option.some.inj h
      decide
  obtain ⟨s, hrun, hreceived, hforwarded⟩ : ∃ s, run (SetupPump.step (fun _ => some (⟨[], []⟩, [])) sampleReply) init
      [.recv [108, 0, 11, 0, 0], .write 5, .recv [0, 0, 0, 0, 0, 0, 0], .announce, .write 3, .write 10,
        .answer 12, .read 9, .answer 8, .read 11] = some s ∧
      s.received = [108, 0, 11, 0, 0, 0, 0, 0, 0, 0, 0, 0] ∧ s.forwarded = 20 := ⟨_, rfl, rfl, rfl⟩
  refine ⟨s, hrun, ?_⟩
  rw [(registered_eq hfixed hrun).1, hreceived, hforwarded]
  decide

end SetupPump

/-! ## The focused window -/

structure ResourceRange where
  base : Nat
  top : Nat
  deriving DecidableEq, Repr

namespace ResourceRange

/-- `new`. -/
def new (base mask : Nat) : ResourceRange := ⟨base, base ||| mask⟩

/-- `contains`. -/
def contains (r : ResourceRange) (id : Nat) : Bool := r.base ≤ id ∧ id ≤ r.top

end ResourceRange

abbrev ResourceIndex := Table ConnectionId ResourceRange

/-- `connection_of`, for the order in which the map is gone through. -/
def connectionOf (ranges : List (ConnectionId × ResourceRange)) (resourceId : Nat) : Option ConnectionId :=
  (ranges.find? fun e => e.2.contains resourceId).map Prod.fst

/-- `POINTER_ROOT`. -/
def pointerRoot : Nat := 1

/-- `focus_names_a_window`. -/
def focusNamesAWindow (focus : Nat) : Prop := focus ≠ pointerRoot ∧ focus ≠ 0

instance (focus : Nat) : Decidable (focusNamesAWindow focus) := by
  unfold focusNamesAWindow
  infer_instance

/-- `foreground_connection`. -/
def foregroundConnection (focus : Nat) (ranges : List (ConnectionId × ResourceRange)) : Option ConnectionId :=
  if focusNamesAWindow focus then connectionOf ranges focus else none

inductive IndexCall where
  | register (conn : ConnectionId) (base mask : Nat)
  | forget (conn : ConnectionId)

namespace ResourceIndex

def step (index : ResourceIndex) : IndexCall → Option ResourceIndex
  | .register conn base mask => some (index.put conn (.new base mask))
  | .forget conn => some (index.remove conn)

/-- What the local X server promises: ranges of `2 ^ k` ids each, one range for one connection. -/
def Given (k : Nat) (index : ResourceIndex) : IndexCall → Prop
  | .register conn base mask =>
    mask = 2 ^ k - 1 ∧ 2 ^ k ∣ base ∧ ∀ c r, c ≠ conn → index.get c = some r → r.base ≠ base
  | .forget _ => True

/-- The ranges of the index are whole blocks, and different. -/
structure Apart (k : Nat) (index : ResourceIndex) : Prop where
  block : ∀ c r, index.get c = some r → 2 ^ k ∣ r.base ∧ r.top = r.base + (2 ^ k - 1)
  base : ∀ c c' r r', index.get c = some r → index.get c' = some r' → r.base = r'.base → c = c'

variable {k : Nat} {index : ResourceIndex}

theorem apart_empty : Apart k .empty := ⟨by simp, by simp⟩

theorem top_new {base : Nat} (h : 2 ^ k ∣ base) :
    (ResourceRange.new base (2 ^ k - 1)).top = base + (2 ^ k - 1) := by
  obtain ⟨n, rfl⟩ := h
  have hpos := Nat.two_pow_pos k
  exact (Nat.two_pow_add_eq_or_of_lt (by omega) n).symm

theorem Apart.step (h : index.Apart k) {call : IndexCall} (hgiven : Given k index call) {next : ResourceIndex}
    (hstep : ResourceIndex.step index call = some next) : next.Apart k := by
  cases call with
  | register conn base mask =>
    obtain ⟨rfl, hdvd, hother⟩ := hgiven
    obtain rfl := Option.some.inj hstep
    have hget := Table.get_put index conn
    constructor
    · intro c r hr
      rw [hget] at hr
      by_cases hc : c = conn
      · rw [if_pos hc] at hr
        obtain rfl := Option.some.inj hr
        exact ⟨hdvd, top_new hdvd⟩
      · rw [if_neg hc] at hr
        exact h.block c r hr
    · intro c c' r r' hr hr' heq
      rw [hget] at hr hr'
      by_cases hc : c = conn
      · by_cases hc' : c' = conn
        · rw [hc, hc']
        · rw [if_pos hc] at hr
          rw [if_neg hc'] at hr'
          obtain rfl := Option.some.inj hr
          exact absurd heq.symm (hother c' r' hc' hr')
      · by_cases hc' : c' = conn
        · rw [if_neg hc] at hr
          rw [if_pos hc'] at hr'
          obtain rfl := Option.some.inj hr'
          exact absurd heq (hother c r hc hr)
        · rw [if_neg hc] at hr
          rw [if_neg hc'] at hr'
          exact h.base c c' r r' hr hr' heq
  | forget conn =>
    obtain rfl := Option.some.inj hstep
    have hkept : ∀ c r, (index.remove conn).get c = some r → index.get c = some r := by
      intro c r hr
      rw [Table.get_remove] at hr
      by_cases hc : c = conn
      · rw [if_pos hc] at hr
        cases hr
      · rwa [if_neg hc] at hr
    exact ⟨fun c r hr => h.block c r (hkept c r hr),
      fun c c' r r' hr hr' => h.base c c' r r' (hkept c r hr) (hkept c' r' hr')⟩

/-- An id stands in the block that its upper bits name. -/
theorem Apart.contains_iff (h : index.Apart k) {c : ConnectionId} {r : ResourceRange} (hr : index.get c = some r)
    (id : Nat) : r.contains id ↔ r.base = id / 2 ^ k * 2 ^ k := by
  obtain ⟨⟨n, hbase⟩, htop⟩ := h.block c r hr
  have hpos := Nat.two_pow_pos k
  have hmod := Nat.div_add_mod id (2 ^ k)
  have hlt := Nat.mod_lt id hpos
  rw [Nat.mul_comm] at hbase
  rw [ResourceRange.contains, htop, hbase]
  simp only [decide_eq_true_eq]
  constructor
  · intro ⟨hle, hge⟩
    have hdiv : id / 2 ^ k = n := by
      refine Nat.div_eq_of_lt_le hle ?_
      rw [Nat.succ_mul]
      omega
    rw [hdiv]
  · intro heq
    rw [heq, Nat.mul_comm (id / 2 ^ k)]
    omega

/-- **The foreground** is the connection whose block the focused window stands in, in every index that a run
    leads to and in whatever order the map is gone through. -/
theorem foreground_iff {calls : List IndexCall} (hgiven : Meets step (Given k) .empty calls)
    (hrun : run step .empty calls = some index) {ranges : List (ConnectionId × ResourceRange)}
    (hperm : ranges.Perm index.entries) (focus : Nat) (conn : ConnectionId) :
    foregroundConnection focus ranges = some conn ↔
      focusNamesAWindow focus ∧ ∃ r, index.get conn = some r ∧ r.base = focus / 2 ^ k * 2 ^ k := by
  have hapart : index.Apart k :=
    run_inv (fun s call t h hg hstep => h.step hg hstep) apart_empty hgiven hrun
  have hmem : ∀ e, e ∈ ranges ↔ index.get e.1 = some e.2 := fun e => hperm.mem_iff.trans Table.mem_entries
  unfold foregroundConnection
  by_cases hwindow : focusNamesAWindow focus
  · rw [if_pos hwindow, connectionOf, Option.map_eq_some_iff]
    simp only [hwindow, true_and]
    constructor
    · rintro ⟨⟨c, r⟩, hfind, rfl⟩
      have hr := (hmem _).mp (List.mem_of_find?_eq_some hfind)
      have hcontains := List.find?_some hfind
      exact ⟨r, hr, (hapart.contains_iff hr focus).mp hcontains⟩
    · rintro ⟨r, hr, hbase⟩
      have hcontains := (hapart.contains_iff hr focus).mpr hbase
      cases hfind : ranges.find? fun e => e.2.contains focus with
      | none =>
        have hnone := List.find?_eq_none.mp hfind (conn, r) ((hmem _).mpr hr)
        exact absurd hcontains hnone
      | some e =>
        -- no other block has this id
        have he := (hmem _).mp (List.mem_of_find?_eq_some hfind)
        have hcontains : e.2.contains focus := by simpa using List.find?_some hfind
        have hebase := (hapart.contains_iff he focus).mp hcontains
        exact ⟨e, rfl, hapart.base _ _ _ _ he hr (hebase.trans hbase.symm)⟩
  · rw [if_neg hwindow]
    simp [hwindow]

/-- Two connections, of which one goes. -/
theorem foreground_iff_two :
    foregroundConnection 0x2200002 [(⟨2⟩, ⟨0x2200000, 0x23fffff⟩)] = some ⟨2⟩ := by
  have hrun : run step .empty [.register ⟨1⟩ 0x2000000 (2 ^ 21 - 1), .register ⟨2⟩ 0x2200000 (2 ^ 21 - 1),
      .forget ⟨1⟩] = some ((Table.empty.put ⟨2⟩ ⟨0x2200000, 0x23fffff⟩ : ResourceIndex)) := by decide
  have hfirst : Given 21 .empty (.register ⟨1⟩ 0x2000000 (2 ^ 21 - 1)) := ⟨rfl, by decide, by simp⟩
  have hsecond : Given 21 (Table.empty.put ⟨1⟩ (.new 0x2000000 (2 ^ 21 - 1)))
      (.register ⟨2⟩ 0x2200000 (2 ^ 21 - 1)) := by
    refine ⟨rfl, by decide, fun c r _ hr => ?_⟩
    have hmem : (c, r) = (⟨1⟩, ResourceRange.new 0x2000000 (2 ^ 21 - 1)) :=
      List.mem_singleton.mp (Table.mem_entries.mpr hr)
    rw [(Prod.mk.inj hmem).2]
    decide
  refine (foreground_iff (k := 21) ?_ hrun (.refl _) 0x2200002 ⟨2⟩).mpr ⟨by decide, _, rfl, by decide⟩
  exact (meets_cons rfl).mpr ⟨hfirst, (meets_cons rfl).mpr ⟨hsecond, (meets_cons rfl).mpr ⟨trivial, trivial⟩⟩⟩

end ResourceIndex

end RemoteX11.Client
