/-
  The handshake of a relay connection (`protocol/handshake.rs`, `protocol/capability.rs`, `auth.rs`).

  `serverHandshake` and `clientHandshake` are dialogs over frames. The id the server draws is an argument.
  `server_handshake_authenticates`: whatever the peer sends, the server accepts it only on the expected
  token. `handshake_agrees`: when the two run against each other and both succeed, they agree on what they
  have negotiated, and the data planes built from it mirror each other.
-/
import RemoteX11.Lib.Dialog
import RemoteX11.Data.Link

namespace RemoteX11.Transport

open RemoteX11.Lib RemoteX11.Protocol RemoteX11.Data

/-! ## Tokens -/

/-- The bytes of a string. -/
def utf8 (s : String) : Bytes := s.toByteArray.data.toList

/-- `verify_token`; the time it takes is not modelled. -/
def verifyToken (provided expected : String) : Bool :=
  if provided.isEmpty || expected.isEmpty then false
  else if (utf8 provided).length ≠ (utf8 expected).length then false
  else
    let mismatch := ((utf8 provided).zip (utf8 expected)).foldl
      (fun acc (a, b) => acc ||| (a ^^^ b)) (0 : UInt8)
    mismatch == 0

theorem utf8_injective {s t : String} (h : utf8 s = utf8 t) : s = t := by
  apply String.toByteArray_inj.mp
  apply ByteArray.ext
  exact Array.toList_inj.mp h

/-- The accumulated difference is zero only when every pair agrees. -/
theorem mismatch_eq_zero (pairs : List (UInt8 × UInt8)) (acc : UInt8) :
    pairs.foldl (fun acc (a, b) => acc ||| (a ^^^ b)) acc = 0 ↔
      acc = 0 ∧ ∀ p ∈ pairs, p.1 = p.2 := by
  induction pairs generalizing acc with
  | nil => simp
  | cons p pairs ih =>
    rw [List.foldl_cons, ih, UInt8.or_eq_zero_iff, UInt8.xor_eq_zero_iff, List.forall_mem_cons]
    tauto

theorem eq_of_zip_eq {xs ys : Bytes} (hlen : xs.length = ys.length)
    (h : ∀ p ∈ xs.zip ys, p.1 = p.2) : xs = ys := by
  apply List.ext_getElem hlen
  intro i hi hi'
  apply h (xs[i], ys[i])
  rw [List.mem_iff_getElem]
  exact ⟨i, by rw [List.length_zip]; omega, by simp⟩

/-- A token is accepted only when it is the expected one, and that is not empty. -/
theorem verifyToken_eq_true {provided expected : String} :
    verifyToken provided expected = true ↔ provided = expected ∧ expected ≠ "" := by
  unfold verifyToken
  constructor
  · intro h
    split at h
    · contradiction
    · rename_i hne
      split at h
      · contradiction
      · rename_i hlen
        have hzero := (mismatch_eq_zero _ _).mp (eq_of_beq h)
        refine ⟨utf8_injective (eq_of_zip_eq (not_not.mp hlen) hzero.2), ?_⟩
        rintro rfl
        simp at hne
  · rintro ⟨rfl, hne⟩
    have hempty : provided.isEmpty = false := by simpa using hne
    rw [hempty]
    simp only [Bool.or_self, Bool.false_eq_true, if_false, ne_eq, not_true_eq_false]
    rw [beq_iff_eq, mismatch_eq_zero]
    refine ⟨rfl, ?_⟩
    intro p hp
    obtain ⟨i, hi, rfl⟩ := List.mem_iff_getElem.mp hp
    simp

/-! ## The two sides -/

/-- `PROTOCOL_VERSION`. -/
def protocolVersion : UInt32 := 1

structure HandshakeResult where
  sessionId : SessionId
  compression : Option CompressionAlgo
  resumeSessionId : Option SessionId
  features : Features
  deriving DecidableEq, Repr

/-- A program on the transport. -/
abbrev Exchange (α : Type) := Dialog Frame Rx11Error Rx11Error α

def placeholderSessionId : SessionId := ⟨"rx11-invalid"⟩

def failedHelloAck (errorMsg : String) : Frame :=
  .json (.helloAck ⟨protocolVersion, placeholderSessionId, false, some errorMsg, none, []⟩)

def recvHandshakeFrame (expecting : String) : Exchange Frame :=
  .hear (some (.protocol s!"Handshake timed out waiting for {expecting}"))

def sendAuthResponse (success : Bool) (errorMsg : Option String) : Exchange Unit :=
  .say (.json (.authResponse ⟨success, errorMsg⟩))

/-- The check of the `AuthRequest`. -/
def authenticate (authToken : String) : Frame → Exchange Unit
  | .json (.authRequest authReq) =>
    match Token.new authReq.token.raw with
    | .error e => do
      sendAuthResponse false (some s!"Invalid token: {e.text}")
      .fail (.auth "Invalid token format")
    | .ok _ =>
      if verifyToken authReq.token.raw authToken then sendAuthResponse true none
      else do
        sendAuthResponse false (some "Invalid token")
        .fail (.auth "Token mismatch")
  | _ => .fail (.protocol "Expected AuthRequest frame")

/-- `server_handshake` from the `Hello` on; `uuid` is the id it draws. -/
def answerHello (uuid authToken : String) (runtime : RuntimeConfig) (hello : HelloMessage) :
    Exchange HandshakeResult :=
  if hello.version ≠ protocolVersion then do
    let msg := s!"Version mismatch: got {hello.version} expected {protocolVersion}"
    Dialog.say (failedHelloAck msg)
    .fail (.protocol msg)
  else if hello.mode ≠ .client then do
    Dialog.say (failedHelloAck "Expected Client mode")
    .fail (.protocol "Expected Client mode")
  else do
    let compression := CompressionAlgo.negotiate hello.compressionAlgos CompressionAlgo.all
    let features := Features.negotiate hello.capabilities (Capability.advertisedFor runtime)
    let sessionId ← Dialog.ret (SessionId.new uuid)
    Dialog.say (.json (.helloAck ⟨protocolVersion, sessionId, true, none, compression, features.toList⟩))
    let authFrame ← recvHandshakeFrame "AuthRequest"
    authenticate authToken authFrame
    pure ⟨sessionId, compression, hello.resumeSessionId, features⟩

/-- `server_handshake`. -/
def serverHandshake (uuid authToken : String) (runtime : RuntimeConfig) : Exchange HandshakeResult := do
  match ← recvHandshakeFrame "Hello" with
  | .json (.hello hello) => answerHello uuid authToken runtime hello
  | _ => .fail (.protocol "Expected Hello frame")

/-- `client_handshake` from the `HelloAck` on. -/
def answerHelloAck (authToken : Token) (resumeSessionId : Option SessionId) (runtime : RuntimeConfig)
    (helloAck : HelloAckMessage) : Exchange HandshakeResult :=
  if ¬ helloAck.success then
    let reason := helloAck.errorMsg.getD "unknown error"
    .fail (.protocol s!"Handshake failed: {reason}")
  else if helloAck.version ≠ protocolVersion then
    .fail (.protocol
      s!"Protocol version mismatch: server {helloAck.version} client {protocolVersion}")
  else do
    Dialog.say (.json (.authRequest ⟨authToken⟩))
    match ← recvHandshakeFrame "AuthResponse" with
    | .json (.authResponse resp) =>
      if ¬ resp.success then
        let reason := resp.errorMsg.getD "unknown error"
        .fail (.auth s!"Auth failed: {reason}")
      else
        pure ⟨helloAck.sessionId, helloAck.compression, resumeSessionId,
          Features.negotiate (Capability.advertisedFor runtime) helloAck.capabilities⟩
    | _ => .fail (.protocol "Expected AuthResponse frame")

/-- `client_handshake`. -/
def clientHandshake (authToken : Token) (resumeSessionId : Option SessionId) (runtime : RuntimeConfig) :
    Exchange HandshakeResult := do
  Dialog.say (.json (.hello ⟨protocolVersion, .client, resumeSessionId, CompressionAlgo.all,
    Capability.advertisedFor runtime⟩))
  match ← recvHandshakeFrame "HelloAck" with
  | .json (.helloAck helloAck) => answerHelloAck authToken resumeSessionId runtime helloAck
  | _ => .fail (.protocol "Expected HelloAck frame")

/-! ## What each side has seen when it succeeds -/

variable {sent received : List Frame}

/-- A refusal never succeeds. -/
theorem not_completes_refuse {f : Frame} {e : Rx11Error} {α : Type} {a : α} :
    ¬ Dialog.Completes (do Dialog.say f; .fail e : Exchange α) sent received (.ok a) := by
  intro h
  obtain ⟨_, -, hfail⟩ := Dialog.completes_say_bind.mp h
  exact Dialog.not_completes_fail hfail

theorem authenticate_completes {authToken : String} {frame : Frame} {u : Unit}
    (h : (authenticate authToken frame).Completes sent received (.ok u)) :
    ∃ req, frame = .json (.authRequest req) ∧ req.token.raw = authToken ∧ authToken ≠ "" ∧
      sent = [.json (.authResponse ⟨true, none⟩)] ∧ received = [] := by
  unfold authenticate at h
  split at h
  · rename_i req
    split at h
    · exact absurd h not_completes_refuse
    · split at h
      · rename_i hverify
        obtain ⟨heq, hne⟩ := verifyToken_eq_true.mp hverify
        obtain ⟨hsent, hreceived⟩ := Dialog.completes_say.mp h
        exact ⟨req, rfl, heq, hne, hsent, hreceived⟩
      · exact absurd h not_completes_refuse
  · exact absurd h Dialog.not_completes_fail

/-- The server has answered a `Hello` with the id it returns and what it has negotiated, and has then seen
    the expected token. -/
theorem serverHandshake_completes {uuid authToken : String} {runtime : RuntimeConfig}
    {r : HandshakeResult}
    (h : (serverHandshake uuid authToken runtime).Completes sent received (.ok r)) :
    ∃ hello req, received = [.json (.hello hello), .json (.authRequest req)] ∧
      sent = [.json (.helloAck ⟨protocolVersion, r.sessionId, true, none, r.compression,
        r.features.toList⟩), .json (.authResponse ⟨true, none⟩)] ∧
      req.token.raw = authToken ∧ authToken ≠ "" ∧
      r.features = Features.negotiate hello.capabilities (Capability.advertisedFor runtime) := by
  obtain ⟨frame, _, hfirst, h₁⟩ := Dialog.completes_hear_bind.mp h
  split at h₁
  · rename_i hello
    unfold answerHello at h₁
    split at h₁
    · exact absurd h₁ not_completes_refuse
    · split at h₁
      · exact absurd h₁ not_completes_refuse
      · obtain ⟨sid, -, h₂⟩ := Dialog.completes_ret_bind.mp h₁
        obtain ⟨_, hack, h₃⟩ := Dialog.completes_say_bind.mp h₂
        obtain ⟨authFrame, _, hsecond, h₄⟩ := Dialog.completes_hear_bind.mp h₃
        obtain ⟨_, _, _, _, _, hauth, h₅, hsent, hrest⟩ := Dialog.completes_bind.mp h₄
        obtain ⟨req, rfl, htoken, hne, hresp, hnone⟩ := authenticate_completes hauth
        obtain ⟨hend, hend', hr⟩ := Dialog.completes_pure.mp h₅
        subst hr
        refine ⟨hello, req, ?_, ?_, htoken, hne, rfl⟩
        · rw [hfirst, hsecond, hrest, hnone, hend']
          rfl
        · rw [hack, hsent, hresp, hend]
          rfl
  · exact absurd h₁ Dialog.not_completes_fail

/-- The client has said what it supports and has taken over what the server answered. -/
theorem clientHandshake_completes {authToken : Token} {resumeSessionId : Option SessionId}
    {runtime : RuntimeConfig} {r : HandshakeResult}
    (h : (clientHandshake authToken resumeSessionId runtime).Completes sent received (.ok r)) :
    ∃ ack resp, received = [.json (.helloAck ack), .json (.authResponse resp)] ∧
      sent = [.json (.hello ⟨protocolVersion, .client, resumeSessionId, CompressionAlgo.all,
        Capability.advertisedFor runtime⟩), .json (.authRequest ⟨authToken⟩)] ∧
      r = ⟨ack.sessionId, ack.compression, resumeSessionId,
        Features.negotiate (Capability.advertisedFor runtime) ack.capabilities⟩ := by
  obtain ⟨_, hhello, h₁⟩ := Dialog.completes_say_bind.mp h
  obtain ⟨frame, _, hfirst, h₂⟩ := Dialog.completes_hear_bind.mp h₁
  split at h₂
  · rename_i ack
    unfold answerHelloAck at h₂
    split at h₂
    · exact absurd h₂ Dialog.not_completes_fail
    · split at h₂
      · exact absurd h₂ Dialog.not_completes_fail
      · obtain ⟨_, hreq, h₃⟩ := Dialog.completes_say_bind.mp h₂
        obtain ⟨frame, _, hsecond, h₄⟩ := Dialog.completes_hear_bind.mp h₃
        split at h₄
        · rename_i resp
          split at h₄
          · exact absurd h₄ Dialog.not_completes_fail
          · obtain ⟨hend, hend', hr⟩ := Dialog.completes_pure.mp h₄
            refine ⟨ack, resp, ?_, ?_, hr.symm⟩
            · rw [hfirst, hsecond, hend']
            · rw [hhello, hreq, hend]
        · exact absurd h₄ Dialog.not_completes_fail
  · exact absurd h₂ Dialog.not_completes_fail

/-- A send or a receive that fails ends the client's handshake with its error. -/
theorem clientHandshake_propagates (authToken : Token) (resumeSessionId : Option SessionId)
    (runtime : RuntimeConfig) :
    (clientHandshake authToken resumeSessionId runtime).Propagates id := by
  apply Dialog.Propagates.bind (.say _)
  intro _
  apply Dialog.Propagates.bind (.hear _)
  intro frame
  split
  · unfold answerHelloAck
    split
    · exact .ret _
    · split
      · exact .ret _
      · apply Dialog.Propagates.bind (.say _)
        intro _
        apply Dialog.Propagates.bind (.hear _)
        intro frame
        split
        · split
          · exact .ret _
          · exact .ret _
        · exact .ret _
  · exact .ret _

/-! ## Agreement -/

/-- `DataPlane::new` on what a handshake returned. -/
def HandshakeResult.dataPlane (r : HandshakeResult) (side : DataPlaneSide) (runtime : RuntimeConfig) :
    DataPlane :=
  ⟨side, r.features, r.compression, runtime.compressionThreshold⟩

theorem advertisedFor_known (runtime : RuntimeConfig) (n : String)
    (h : n ∈ Capability.advertisedFor runtime) : ∃ c, n = Capability.name c := by
  obtain ⟨c, -, rfl⟩ := List.mem_map.mp h
  exact ⟨c, rfl⟩

/-- What the two sides agree on. -/
structure Agreed (clientRuntime serverRuntime : RuntimeConfig) (c r : HandshakeResult) : Prop where
  sessionId : c.sessionId = r.sessionId
  compression : c.compression = r.compression
  features : c.features = r.features
  intersection : ∀ n, n ∈ c.features.toList ↔
    n ∈ Capability.advertisedFor clientRuntime ∧ n ∈ Capability.advertisedFor serverRuntime

theorem Agreed.mirrors {clientRuntime serverRuntime : RuntimeConfig} {c r : HandshakeResult}
    (h : Agreed clientRuntime serverRuntime c r) :
    Mirrors (r.dataPlane .relay serverRuntime) (c.dataPlane .client clientRuntime) :=
  ⟨rfl, h.features, h.compression⟩

/-- **Agreement and authentication.** The client and the server run against each other, with any failure at
    any operation: if both succeed they agree, and each plane accepts diffs exactly when the other may send
    them. Against any peer at all, the server succeeds only on a `Hello` and then the expected token. -/
theorem handshake_agrees (uuid expected : String) (token : Token) (resume : Option SessionId)
    (clientRuntime serverRuntime : RuntimeConfig) :
    (∀ as u c r, run Wire.step (⟨clientHandshake token resume clientRuntime,
        serverHandshake uuid expected serverRuntime, [], []⟩ : Wire _ _ _ _ _) as = some u →
      u.left = .ret (.ok c) → u.right = .ret (.ok r) →
      Agreed clientRuntime serverRuntime c r ∧
      (r.dataPlane .relay serverRuntime).mayDiffSend =
        (c.dataPlane .client clientRuntime).mayDiffReceive ∧
      (c.dataPlane .client clientRuntime).mayDiffSend =
        (r.dataPlane .relay serverRuntime).mayDiffReceive) ∧
    ∀ sent received r, (serverHandshake uuid expected serverRuntime).Completes sent received (.ok r) →
      expected ≠ "" ∧ ∃ hello req,
        received = [.json (.hello hello), .json (.authRequest req)] ∧ req.token.raw = expected := by
  refine ⟨?_, ?_⟩
  · intro as u c r hrun hc hr
    obtain ⟨sentL, receivedL, sentR, receivedR, hL, hR, htoR, htoL⟩ := Wire.wire_completes hrun hc hr
    obtain ⟨ack, resp, rfl, rfl, rfl⟩ := clientHandshake_completes hL
    obtain ⟨hello, req, rfl, rfl, -, -, hfeatures⟩ := serverHandshake_completes hR
    -- what the server heard is what the client said, and the other way round
    simp only [List.nil_append, List.cons_append, List.cons.injEq, Frame.json.injEq,
      JsonMessage.hello.injEq, JsonMessage.helloAck.injEq] at htoR htoL
    obtain ⟨rfl, -⟩ := htoR
    obtain ⟨rfl, -⟩ := htoL
    have hagreed : Agreed clientRuntime serverRuntime
        ⟨r.sessionId, r.compression, resume,
          Features.negotiate (Capability.advertisedFor clientRuntime) r.features.toList⟩ r := by
      rw [hfeatures]
      refine ⟨rfl, rfl, ?_, ?_⟩
      · rw [hfeatures]
        exact Features.negotiate_echo _ _
      · rw [Features.negotiate_echo]
        exact Features.mem_toList_negotiate (advertisedFor_known clientRuntime)
    refine ⟨hagreed, ?_, ?_⟩
    · exact (DataPlane.mayDiffReceive_opposite hagreed.mirrors.side hagreed.mirrors.features).symm
    · exact (DataPlane.mayDiffReceive_opposite rfl hagreed.mirrors.features.symm).symm
  · intro sent received r h
    obtain ⟨hello, req, hreceived, -, htoken, hne, -⟩ := serverHandshake_completes h
    exact ⟨hne, hello, req, hreceived, htoken⟩

/-- A client that does not diff its uplink, and a relay that forwards no audio. -/
theorem handshake_agrees_downlink :
    ∃ c r, Agreed ⟨true, true, true, true, false, 256⟩ ⟨true, false, true, true, true, 256⟩ c r ∧
      r.sessionId = ⟨"id"⟩ ∧
      c.features.toList =
        ["request_resync", "incremental", "flow_control", "x11", "x11_recode", "audio_per_app"] := by
  let clientRuntime : RuntimeConfig := ⟨true, true, true, true, false, 256⟩
  let serverRuntime : RuntimeConfig := ⟨true, false, true, true, true, 256⟩
  let as : List (WireAction Rx11Error) := [.left .go, .right .go, .right .go, .left .go, .left .go,
    .right .go, .right .go, .left .go]
  obtain ⟨u, c, r, hrun, hc, hr, hid, hlist⟩ : ∃ u c r,
      run Wire.step (⟨clientHandshake ⟨"t"⟩ none clientRuntime, serverHandshake "id" "t" serverRuntime,
        [], []⟩ : Wire _ _ _ _ _) as = some u ∧ u.left = .ret (.ok c) ∧ u.right = .ret (.ok r) ∧
      r.sessionId = ⟨"id"⟩ ∧ c.features.toList =
        ["request_resync", "incremental", "flow_control", "x11", "x11_recode", "audio_per_app"] := by
    exact ⟨_, _, _, rfl, rfl, rfl, rfl, rfl⟩
  have h := (handshake_agrees "id" "t" ⟨"t"⟩ none clientRuntime serverRuntime).1 as u c r hrun hc hr
  exact ⟨c, r, h.1, hid, hlist⟩

end RemoteX11.Transport
