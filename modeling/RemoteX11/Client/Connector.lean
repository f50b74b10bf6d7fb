/-
  The connector's cycle of attempts (`connector.rs`: `run_cycles`, `establish`, `connect_and_serve_once`;
  `serve/mod.rs`: how `serve` and `dispatch_frame` end; `error.rs`: what is retriable).

  An attempt is a script: what the TCP connect and the socket options returned, what each send and receive
  of the exchange returned, the events of the serve loop, and whether a stop was requested at the top of
  the loop or during the backoff. `step` is one turn of `run_cycles` with such a script; it is not enabled
  by a script that is not one of exactly the operations of the attempt. The delays are not modelled.

  An `anyhow::Error` is what `downcast_ref` finds in it. A counter that overflows wraps, as in a release
  build.
-/
import RemoteX11.Transport.Handshake

namespace RemoteX11.Client.Connector

open RemoteX11.Lib RemoteX11.Protocol RemoteX11.Data RemoteX11.Transport

/-! ## Errors -/

/-- `anyhow::Error`. -/
inductive AnyError where
  | rx11 (e : Rx11Error)
  | io (e : IoError)
  | msg (text : String)
  deriving DecidableEq, Repr

def AnyError.text : AnyError → String
  | .rx11 e => e.text
  | .io e => e.msg
  | .msg text => text

/-- `is_retriable`. -/
def isRetriable : AnyError → Bool
  | .rx11 e => e.isRetriable
  | .io e => isRetriableIoError e
  | .msg _ => false

/-! ## The state a handle shows -/

inductive ConnectorPhase where
  | connecting
  | handshaking
  | serving
  | reconnecting
  | stopped
  | failed
  deriving DecidableEq, Repr

structure ConnectorState where
  phase : ConnectorPhase
  display : Option UInt16
  sessionId : Option String
  reconnectAttempt : UInt32
  compression : Option String
  features : List String
  lastError : Option String
  deriving DecidableEq, Repr

/-- `ConnectorState::default()`. -/
def ConnectorState.new : ConnectorState := ⟨.stopped, none, none, 0, none, [], none⟩

/-- The fields of `LocalConnector` an attempt reads. -/
structure LocalConnector where
  relayAddr : String
  authToken : String
  display : Option UInt16
  autoDisplay : Bool
  maxRetries : UInt32
  runtime : RuntimeConfig

/-! ## Establishing a session -/

/-- What `TcpStream::connect` under its timeout returned. -/
inductive Connect where
  | timedOut
  | failed (e : IoError)
  | connected
  deriving DecidableEq, Repr

abbrev Establish (α : Type) := Dialog Frame Rx11Error AnyError α

/-- `X11_AUTH_NAME`. -/
def x11AuthName : String := "MIT-MAGIC-COOKIE-1"

def sendFrame (frame : Frame) : Establish Unit := (Dialog.say frame).mapError .rx11

def recvFrame : Establish Frame := (Dialog.hear none).mapError .rx11

def recvSessionAck : Establish SessionAckMessage := do
  match ← recvFrame with
  | .json (.sessionAck ack) => pure ack
  | _ => .fail (.msg "Expected SessionAck")

/-- The request for a new session; `cookie` is the one drawn. -/
def newSessionFrame (c : LocalConnector) (cookie : Bytes) : Result Frame :=
  if c.autoDisplay then .ok (.json (.sessionAutoCreate ⟨x11AuthName, cookie⟩))
  else (DisplayNumber.new (c.display.getD 0)).map fun display =>
    .json (.sessionCreate ⟨display, x11AuthName, cookie⟩)

def requestNewSession (c : LocalConnector) (cookie : Bytes) : Establish (DisplayNumber × SessionId) := do
  let frame ← .ret ((newSessionFrame c cookie).mapError .rx11)
  sendFrame frame
  let ack ← recvSessionAck
  if ¬ ack.success then
    let reason := ack.errorMsg.getD "unknown error"
    .fail (.msg s!"Session create failed: {reason}")
  else
    match ack.sessionId with
    | none => .fail (.msg "Missing session_id")
    | some sid => pure (ack.display, sid)

/-- `try_resume_session`, with the session id it saves. -/
def tryResumeSession (c : LocalConnector) (cookie : Bytes) (sid : SessionId) :
    Establish (DisplayNumber × Option String) := do
  sendFrame (.json (.sessionResume ⟨sid⟩))
  let ack ← recvSessionAck
  if ¬ ack.success then
    let (display, sid) ← requestNewSession c cookie
    pure (display, some sid.raw)
  else pure (ack.display, ack.sessionId.map SessionId.raw)

/-- An established session: the display, the session id saved for a resume, the data plane. -/
structure Established where
  display : DisplayNumber
  saved : Option String
  dataplane : DataPlane

/-- The resume or the creation of the session, with the session id saved. -/
def obtainSession (c : LocalConnector) (cookie : Bytes) :
    Option SessionId → Establish (DisplayNumber × Option String)
  | some sid => tryResumeSession c cookie sid
  | none => do
    let (display, sid) ← requestNewSession c cookie
    pure (display, some sid.raw)

/-- The id to resume, checked. -/
def resumeSid : Option String → Result (Option SessionId)
  | none => .ok none
  | some s => (SessionId.new s).map some

/-- `establish` once the socket is connected and its options are set. -/
def establishOver (c : LocalConnector) (cookie : Bytes) (resumeSessionId : Option String) :
    Establish Established := do
  let sid ← .ret ((resumeSid resumeSessionId).mapError .rx11)
  let token ← .ret ((Token.new c.authToken).mapError .rx11)
  let handshake ← (clientHandshake token sid c.runtime).mapError .rx11
  let (display, saved) ← obtainSession c cookie sid
  pure ⟨display, saved, handshake.dataPlane .client c.runtime⟩

/-- `establish`; `options` is what `connect_tcp` returned. Whatever fails, the saved id is left alone. -/
def establish (c : LocalConnector) (cookie : Bytes) (resumeSessionId : Option String) (connect : Connect)
    (options : Result Unit) : Establish Established :=
  match connect with
  | .timedOut => .fail (.msg s!"TCP connect to {c.relayAddr} timed out")
  | .failed e => .fail (.io e)
  | .connected =>
    match options with
    | .error e => .fail (.rx11 e)
    | .ok () => establishOver c cookie resumeSessionId

/-! ## Serving -/

/-- What became of the connection to the local X server in `spawn_local_connection`. -/
inductive LocalConnect where
  | refused (e : IoError)
  /-- connected, but `set_nodelay` failed -/
  | nodelayFailed (e : IoError)
  | connected
  deriving DecidableEq, Repr

/-- What the parts `dispatch_frame` calls answer. -/
structure Answers where
  inbound : InboundOutcome
  audioOwns : Bool
  connected : LocalConnect

/-- The frame is plain data of an open audio channel. -/
def Answers.audio (answers : Answers) : BinaryMessage → Bool
  | .streamData _ => answers.audioOwns
  | _ => false

/-- How `dispatch_frame` ends. -/
def dispatchFrame (answers : Answers) : Frame → Except AnyError Unit
  | .json (.channelOpen m) =>
    if m.kind = .x11 then
      match answers.connected with
      | .nodelayFailed e => .error (.io e)
      | _ => .ok ()
    else .ok ()
  | .binary m =>
    if answers.audio m then .ok ()
    else
      match answers.inbound with
      | .streamBroken => .error (.rx11 (.protocol "compression stream broken; forcing reconnect"))
      | _ => .ok ()
  | _ => .ok ()

/-- A turn of the serve loop, and the stop signal it runs against. -/
inductive ServeEvent where
  /-- a tick or a flow edge -/
  | idle
  | frame (f : Frame) (answers : Answers)
  | recvFailed (e : Rx11Error)
  | readTimeout
  | ctrlC
  | stop

/-- What `serve` returns after this turn, if it returns. -/
def ServeEvent.outcome : ServeEvent → Option (Except AnyError Unit)
  | .idle => none
  | .frame f answers =>
    match dispatchFrame answers f with
    | .ok () => none
    | .error e => some (.error e)
  | .recvFailed e => some (.error (.rx11 e))
  | .readTimeout => some (.error (.rx11 .timeout))
  | .ctrlC => some (.ok ())
  | .stop => some (.ok ())

/-- `serve`, against the stop signal. -/
def serve : List ServeEvent → Option (Except AnyError Unit)
  | [] => none
  | event :: events =>
    match event.outcome with
    | none => serve events
    | some result => if events.isEmpty then some result else none

/-! ## The cycle -/

structure Attempt where
  stopAtStart : Bool
  cookie : Bytes
  connect : Connect
  options : Result Unit
  exchange : List (Event Frame Rx11Error)
  serve : List ServeEvent
  stopInBackoff : Bool

/-- The variables of `run_cycles`, the state its handle shows, and what `connect_and_serve` returned. -/
structure Cycles where
  attempt : UInt32
  lastSessionId : Option String
  state : ConnectorState
  result : Option (Except AnyError Unit)

def Cycles.new : Cycles := ⟨0, none, .new, none⟩

/-- What `establish` returns in this attempt. -/
def established (c : LocalConnector) (s : Cycles) (a : Attempt) : Option (Except AnyError Established) :=
  (establish c a.cookie s.lastSessionId a.connect a.options).play a.exchange

/-- The phase an attempt has reached that does not establish a session. -/
def Attempt.failedPhase (a : Attempt) : ConnectorPhase :=
  match a.connect, a.options with
  | .connected, .ok () => .handshaking
  | _, _ => .connecting

/-- `connect_and_serve_once`. -/
def connectAndServeOnce (c : LocalConnector) (s : Cycles) (a : Attempt) :
    Option (Except AnyError Unit × Cycles) :=
  match established c s a with
  | none => none
  | some (.error e) =>
    if a.serve.isEmpty then
      some (.error e, { s with state := { s.state with phase := a.failedPhase } })
    else none
  | some (.ok est) =>
    (serve a.serve).map fun result => (result, { s with
      lastSessionId := est.saved
      state := { s.state with
        phase := .serving
        display := some est.display.raw
        sessionId := est.saved
        compression := est.dataplane.compression.map CompressionAlgo.asStr
        features := est.dataplane.features.toList
        lastError := none } })

/-- `connect_and_serve` returns. -/
def Cycles.finish (s : Cycles) (result : Except AnyError Unit) : Cycles :=
  { s with
    result := some result
    state := match result with
      | .ok () => { s.state with phase := .stopped }
      | .error e => { s.state with phase := .failed, lastError := some e.text } }

/-- An attempt has failed. -/
def Cycles.afterFailure (c : LocalConnector) (s : Cycles) (e : AnyError) (stopInBackoff : Bool) : Cycles :=
  if ¬ isRetriable e then s.finish (.error e)
  else
    let s := { s with attempt := s.attempt + 1 }
    if s.attempt > c.maxRetries then s.finish (.error e)
    else
      let s := { s with state := { s.state with
        phase := .reconnecting
        reconnectAttempt := s.attempt
        lastError := some e.text } }
      if stopInBackoff then s.finish (.ok ()) else s

/-- The state an attempt starts from. -/
def Cycles.connecting (s : Cycles) : Cycles :=
  { s with state := { s.state with phase := .connecting, reconnectAttempt := s.attempt } }

/-- One turn of `run_cycles`. -/
def step (c : LocalConnector) (s : Cycles) (a : Attempt) : Option Cycles :=
  if s.result.isSome then none
  else if a.stopAtStart then some (s.finish (.ok ()))
  else
    (connectAndServeOnce c s.connecting a).map fun (result, s) =>
      match result with
      | .ok () => s.finish (.ok ())
      | .error e => s.afterFailure c e a.stopInBackoff

/-! ## How an attempt that failed for a transport reason ended -/

inductive TransportReason where
  | connectTimedOut
  | connectFailed (e : IoError)
  /-- a send or a receive on the connection failed -/
  | lost (e : IoError)
  | closed
  /-- nothing came within the read timeout -/
  | silent
  /-- a frame that does not decode -/
  | undecodable (msg : String)
  | streamBroken
  deriving DecidableEq, Repr

/-- The reason for which a receive fails. -/
def recvReason : Rx11Error → Option TransportReason
  | .io e => some (.lost e)
  | .connectionClosed => some .closed
  | .timeout => some .silent
  | .protocol msg => some (.undecodable msg)
  | .auth _ => none

def exchangeReason : Event Frame Rx11Error → Option TransportReason
  | .sent (.error (.io e)) => some (.lost e)
  | .received (.error e) => recvReason e
  | _ => none

def serveReason : ServeEvent → Option TransportReason
  | .recvFailed e => recvReason e
  | .readTimeout => some .silent
  | .frame (.binary m) answers =>
    if answers.audio m then none
    else if answers.inbound = .streamBroken then some .streamBroken
    else none
  | _ => none

/-- The transport reason an attempt ends for, if it is one: the connect was refused or timed out, the last
    receive or send failed, or the compression stream broke. -/
def Attempt.reason (a : Attempt) : Option TransportReason :=
  match a.connect with
  | .timedOut => some .connectTimedOut
  | .failed e =>
    if e.kind = .connectionRefused ∨ e.kind = .timedOut then some (.connectFailed e) else none
  | .connected =>
    match a.serve.getLast? with
    | some event => serveReason event
    | none => a.exchange.getLast?.bind exchangeReason

/-- The error it ends with. -/
def TransportReason.error (c : LocalConnector) : TransportReason → AnyError
  | .connectTimedOut => .msg s!"TCP connect to {c.relayAddr} timed out"
  | .connectFailed e => .io e
  | .lost e => .rx11 (.io e)
  | .closed => .rx11 .connectionClosed
  | .silent => .rx11 .timeout
  | .undecodable msg => .rx11 (.protocol msg)
  | .streamBroken => .rx11 (.protocol "compression stream broken; forcing reconnect")

/-- The reasons the code recovers from: not the connect timeout, not a frame that does not decode, not a
    broken stream, and of the I/O errors those `is_retriable_io_error` lists. -/
def TransportReason.Recoverable : TransportReason → Prop
  | .connectFailed e | .lost e => isRetriableIoError e = true
  | .closed | .silent => True
  | .connectTimedOut | .undecodable _ | .streamBroken => False

theorem recvReason_error {e : Rx11Error} {r : TransportReason} (c : LocalConnector)
    (h : recvReason e = some r) : r.error c = .rx11 e := by
  cases e <;> cases h <;> rfl

theorem exchangeReason_error {event : Event Frame Rx11Error} {r : TransportReason} (c : LocalConnector)
    (h : exchangeReason event = some r) : ∃ e, event.failure = some e ∧ r.error c = .rx11 e := by
  unfold exchangeReason at h
  split at h
  · cases h
    exact ⟨_, rfl, rfl⟩
  · exact ⟨_, rfl, recvReason_error c h⟩
  · cases h

theorem serveReason_error {event : ServeEvent} {r : TransportReason} (c : LocalConnector)
    (h : serveReason event = some r) : event.outcome = some (.error (r.error c)) := by
  unfold serveReason at h
  split at h
  · rw [recvReason_error c h]
    rfl
  · cases h
    rfl
  · rename_i m answers
    split at h
    · cases h
    · rename_i haudio
      split at h
      · rename_i hbroken
        cases h
        simp only [ServeEvent.outcome, dispatchFrame, if_neg haudio, hbroken, TransportReason.error]
      · cases h
  · cases h

/-- The last turn decides what `serve` returns. -/
theorem serve_eq_some {events : List ServeEvent} {result : Except AnyError Unit}
    (h : serve events = some result) : ∃ event, events.getLast? = some event ∧
      event.outcome = some result := by
  induction events with
  | nil => cases h
  | cons event events ih =>
    unfold serve at h
    cases houtcome : event.outcome with
    | none =>
      rw [houtcome] at h
      obtain ⟨last, hlast, hresult⟩ := ih h
      refine ⟨last, ?_, hresult⟩
      rw [List.getLast?_cons, hlast]
      rfl
    | some r =>
      simp only [houtcome] at h
      split at h
      · rename_i hempty
        rw [List.isEmpty_iff.mp hempty]
        cases h
        exact ⟨event, rfl, houtcome⟩
      · cases h

theorem recvSessionAck_propagates : recvSessionAck.Propagates AnyError.rx11 := by
  apply Dialog.Propagates.bind (Dialog.Propagates.mapError _ (.hear none))
  intro frame
  split
  · exact .ret _
  · exact .ret _

theorem sendFrame_propagates (frame : Frame) : (sendFrame frame).Propagates AnyError.rx11 :=
  Dialog.Propagates.mapError _ (.say frame)

theorem requestNewSession_propagates (c : LocalConnector) (cookie : Bytes) :
    (requestNewSession c cookie).Propagates AnyError.rx11 := by
  apply Dialog.Propagates.bind (.ret _)
  intro frame
  apply Dialog.Propagates.bind (sendFrame_propagates frame)
  intro _
  apply Dialog.Propagates.bind recvSessionAck_propagates
  intro ack
  split
  · exact .ret _
  · split
    · exact .ret _
    · exact .ret _

theorem tryResumeSession_propagates (c : LocalConnector) (cookie : Bytes) (sid : SessionId) :
    (tryResumeSession c cookie sid).Propagates AnyError.rx11 := by
  apply Dialog.Propagates.bind (sendFrame_propagates _)
  intro _
  apply Dialog.Propagates.bind recvSessionAck_propagates
  intro ack
  split
  · apply Dialog.Propagates.bind (requestNewSession_propagates c cookie)
    intro _
    exact .ret _
  · exact .ret _

theorem obtainSession_propagates (c : LocalConnector) (cookie : Bytes) (sid : Option SessionId) :
    (obtainSession c cookie sid).Propagates AnyError.rx11 := by
  cases sid with
  | some sid => exact tryResumeSession_propagates c cookie sid
  | none =>
    apply Dialog.Propagates.bind (requestNewSession_propagates c cookie)
    intro _
    exact .ret _

/-- Every operation of `establish` is followed by a `?`. -/
theorem establish_propagates (c : LocalConnector) (cookie : Bytes) (resumeSessionId : Option String)
    (connect : Connect) (options : Result Unit) :
    (establish c cookie resumeSessionId connect options).Propagates AnyError.rx11 := by
  unfold establish
  split
  · exact .ret _
  · exact .ret _
  · split
    · exact .ret _
    · apply Dialog.Propagates.bind (.ret _)
      intro sid
      apply Dialog.Propagates.bind (.ret _)
      intro token
      apply Dialog.Propagates.bind (Dialog.Propagates.mapError _ (clientHandshake_propagates _ _ _))
      intro handshake
      apply Dialog.Propagates.bind (obtainSession_propagates c cookie sid)
      intro _
      exact .ret _

/-! ## One attempt -/

/-- The session id kept for a resume: that of the session this attempt established, or else the one from
    before. -/
def keptSessionId (c : LocalConnector) (s : Cycles) (a : Attempt) : Option String :=
  match established c s a with
  | some (.ok est) => est.saved
  | _ => s.lastSessionId

/-- What an attempt leaves: the counter is not touched and the session id is kept. -/
theorem connectAndServeOnce_keeps {c : LocalConnector} {s s' : Cycles} {a : Attempt}
    {result : Except AnyError Unit} (h : connectAndServeOnce c s a = some (result, s')) :
    s'.attempt = s.attempt ∧ s'.result = s.result ∧ s'.lastSessionId = keptSessionId c s a := by
  unfold connectAndServeOnce at h
  unfold keptSessionId
  cases hest : established c s a with
  | none => rw [hest] at h; cases h
  | some res =>
    rw [hest] at h
    cases res with
    | error e =>
      simp only at h
      split at h
      · cases h
        exact ⟨rfl, rfl, rfl⟩
      · cases h
    | ok est =>
      obtain ⟨r, -, hr⟩ := Option.map_eq_some_iff.mp h
      cases hr
      exact ⟨rfl, rfl, rfl⟩

/-- Without a session to serve, an attempt returns the error of `establish`. -/
theorem connectAndServeOnce_error {c : LocalConnector} {s s' : Cycles} {a : Attempt}
    {result : Except AnyError Unit} {e : AnyError} (h : connectAndServeOnce c s a = some (result, s'))
    (hest : established c s a = some (.error e)) : result = .error e ∧ a.serve = [] := by
  unfold connectAndServeOnce at h
  simp only [hest] at h
  split at h
  · rename_i hempty
    cases h
    exact ⟨rfl, List.isEmpty_iff.mp hempty⟩
  · cases h

/-- With one, what `serve` returns. -/
theorem connectAndServeOnce_serve {c : LocalConnector} {s s' : Cycles} {a : Attempt}
    {result : Except AnyError Unit} {est : Established}
    (h : connectAndServeOnce c s a = some (result, s')) (hest : established c s a = some (.ok est)) :
    serve a.serve = some result ∧ s'.state.phase = .serving := by
  unfold connectAndServeOnce at h
  simp only [hest] at h
  obtain ⟨r, hserve, hr⟩ := Option.map_eq_some_iff.mp h
  cases hr
  exact ⟨hserve, rfl⟩

/-- An attempt that ends for a transport reason returns its error. -/
theorem connectAndServeOnce_reason {c : LocalConnector} {s s' : Cycles} {a : Attempt}
    {result : Except AnyError Unit} {r : TransportReason}
    (h : connectAndServeOnce c s a = some (result, s')) (hr : a.reason = some r) :
    result = .error (r.error c) := by
  cases hest : established c s a with
  | none =>
    unfold connectAndServeOnce at h
    rw [hest] at h
    cases h
  | some res =>
    unfold Attempt.reason at hr
    cases hconn : a.connect with
    | timedOut =>
      rw [hconn] at hr
      cases hr
      have hplay := hest
      unfold established establish at hplay
      rw [hconn] at hplay
      rw [Dialog.play_fail hplay] at hest
      exact (connectAndServeOnce_error h hest).1
    | failed e =>
      simp only [hconn] at hr
      split at hr
      · cases hr
        have hplay := hest
        unfold established establish at hplay
        rw [hconn] at hplay
        rw [Dialog.play_fail hplay] at hest
        exact (connectAndServeOnce_error h hest).1
      · cases hr
    | connected =>
      simp only [hconn] at hr
      cases res with
      | error e =>
        obtain ⟨hresult, hserve⟩ := connectAndServeOnce_error h hest
        rw [hserve] at hr
        -- the exchange failed, at its last operation
        obtain ⟨event, hlast, hreason⟩ := Option.bind_eq_some_iff.mp hr
        obtain ⟨e', hfailure, herror⟩ := exchangeReason_error c hreason
        obtain ⟨events, hevents⟩ := List.getLast?_eq_some_iff.mp hlast
        unfold established at hest
        rw [hevents] at hest
        have heq := (establish_propagates c a.cookie s.lastSessionId a.connect a.options).play_failed
          hfailure hest
        rw [hresult, Except.error.inj heq, herror]
      | ok est =>
        obtain ⟨hserve, -⟩ := connectAndServeOnce_serve h hest
        obtain ⟨event, hlast, houtcome⟩ := serve_eq_some hserve
        rw [hlast] at hr
        rw [serveReason_error c hr] at houtcome
        exact (Option.some.inj houtcome).symm

/-- A step that makes an attempt and does not stop. -/
theorem step_attempt {c : LocalConnector} {s t : Cycles} {a : Attempt} (h : step c s a = some t)
    (hstart : a.stopAtStart = false) : ∃ result s', s'.attempt = s.attempt ∧ s'.result = none ∧
      s'.lastSessionId = keptSessionId c s a ∧
      connectAndServeOnce c s.connecting a = some (result, s') ∧
      t = match result with
        | .ok () => s'.finish (.ok ())
        | .error e => s'.afterFailure c e a.stopInBackoff := by
  unfold step at h
  split at h
  · cases h
  · rename_i hnone
    rw [if_neg (by simp [hstart])] at h
    obtain ⟨⟨result, s'⟩, honce, rfl⟩ := Option.map_eq_some_iff.mp h
    obtain ⟨hattempt, hresult, hkept⟩ := connectAndServeOnce_keeps honce
    refine ⟨result, s', hattempt, ?_, hkept, honce, rfl⟩
    rw [hresult]
    show s.result = none
    simpa using hnone

/-! ## Which failures are retried -/

/-- The retry path: the loop goes on, in backoff, with the attempt counted and the session id kept. -/
structure TakesRetry (c : LocalConnector) (s : Cycles) (a : Attempt) (t : Cycles) : Prop where
  goesOn : t.result = none
  phase : t.state.phase = .reconnecting
  counted : t.attempt = s.attempt + 1
  shown : t.state.reconnectAttempt = s.attempt + 1
  kept : t.lastSessionId = keptSessionId c s a

theorem isRetriable_error (c : LocalConnector) (r : TransportReason) :
    isRetriable (r.error c) = true ↔ r.Recoverable := by
  cases r with
  | connectFailed e => rfl
  | lost e => rfl
  | closed => exact iff_of_true rfl trivial
  | silent => exact iff_of_true rfl trivial
  | connectTimedOut => exact iff_of_false Bool.false_ne_true id
  | undecodable msg => exact iff_of_false Bool.false_ne_true id
  | streamBroken => exact iff_of_false Bool.false_ne_true id

theorem afterFailure_retriable {c : LocalConnector} {s : Cycles} {e : AnyError}
    (he : isRetriable e = true) (hbudget : s.attempt < c.maxRetries) :
    s.afterFailure c e false = { s with
      attempt := s.attempt + 1
      state := { s.state with
        phase := .reconnecting
        reconnectAttempt := s.attempt + 1
        lastError := some e.text } } := by
  have hle : ¬ s.attempt + 1 > c.maxRetries := by
    rw [gt_iff_lt, UInt32.lt_iff_toNat_lt, UInt32.toNat_add]
    rw [UInt32.lt_iff_toNat_lt] at hbudget
    have := c.maxRetries.toNat_lt
    simp only [UInt32.toNat_one]
    omega
  simp [Cycles.afterFailure, he, hle]

/-- **Which failures are retried.** In every run of the connector, an attempt that ends for a transport
    reason, within the budget and with no stop requested, takes the retry path exactly when the reason is
    one the code recovers from. -/
theorem retried_iff_recoverable (c : LocalConnector) (as : List Attempt) (a : Attempt) (s t : Cycles)
    (r : TransportReason) (hbefore : run (step c) .new as = some s)
    (hafter : run (step c) .new (as ++ [a]) = some t) (hreason : a.reason = some r)
    (hbudget : s.attempt < c.maxRetries) (hstart : a.stopAtStart = false)
    (hbackoff : a.stopInBackoff = false) : TakesRetry c s a t ↔ r.Recoverable := by
  have hstep : step c s a = some t := by
    obtain ⟨s', hs', hlast⟩ := run_append.mp hafter
    rw [hbefore] at hs'
    cases hs'
    obtain ⟨t', ht', hnil⟩ := run_cons_eq_some.mp hlast
    cases hnil
    exact ht'
  obtain ⟨result, s', hattempt, hnone, hkept, honce, ht⟩ := step_attempt hstep hstart
  rw [connectAndServeOnce_reason honce hreason] at ht
  rw [← isRetriable_error c r]
  constructor
  · intro h
    by_contra hnot
    have hfinish : t = s'.finish (.error (r.error c)) := by
      rw [ht]
      exact if_pos hnot
    have := h.goesOn
    rw [hfinish] at this
    cases this
  · intro he
    simp only [hbackoff] at ht
    rw [afterFailure_retriable he (by rw [hattempt]; exact hbudget)] at ht
    subst ht
    refine ⟨hnone, rfl, ?_, ?_, hkept⟩
    · rw [← hattempt]
    · rw [← hattempt]

/-- A connector with the default budget. -/
def exampleConnector (maxRetries : UInt32) : LocalConnector :=
  ⟨"relay:7000", "t", none, true, maxRetries, ⟨true, true, true, true, true, 256⟩⟩

/-- An attempt that establishes the session `sid` and serves until `last`. -/
def servedUntil (last : ServeEvent) : Attempt where
  stopAtStart := false
  cookie := []
  connect := .connected
  options := .ok ()
  exchange := [.sent (.ok ()), .received (.ok (.json (.helloAck ⟨1, ⟨"x"⟩, true, none, none, []⟩))),
    .sent (.ok ()), .received (.ok (.json (.authResponse ⟨true, none⟩))),
    .sent (.ok ()), .received (.ok (.json (.sessionAck ⟨⟨10⟩, true, none, some ⟨"sid"⟩⟩)))]
  serve := [.idle, last]
  stopInBackoff := false

/-- The relay closes the connection while it is served: the session id is kept. -/
theorem retried_iff_recoverable_closed :
    ∃ t, run (step (exampleConnector 10)) .new [servedUntil (.recvFailed .connectionClosed)] = some t ∧
      TakesRetry (exampleConnector 10) .new (servedUntil (.recvFailed .connectionClosed)) t ∧
      t.lastSessionId = some "sid" := by
  refine ⟨_, rfl, ?_, rfl⟩
  refine (retried_iff_recoverable (exampleConnector 10) [] _ .new _ .closed rfl rfl rfl ?_ rfl rfl).mpr ?_
  · decide
  · trivial

/-- A compressed frame that does not decompress ends the connector, although its budget is untouched. -/
theorem broken_stream_ends_connector :
    ¬ ∀ (c : LocalConnector) (as : List Attempt) (a : Attempt) (s t : Cycles) (r : TransportReason),
      run (step c) .new as = some s → run (step c) .new (as ++ [a]) = some t → a.reason = some r →
      s.attempt < c.maxRetries → a.stopAtStart = false → a.stopInBackoff = false →
      TakesRetry c s a t := by
  intro h
  let frame : Frame := .binary (.compressedStreamData ⟨⟨3⟩, 1, 5, [1]⟩)
  have hretry := h (exampleConnector 10) [] (servedUntil (.frame frame ⟨.streamBroken, false, .connected⟩))
    .new _ .streamBroken rfl rfl rfl (by decide) rfl rfl
  cases hretry.goesOn

/-! ## When the budget is exhausted -/

/-- The attempt gets as far as serving. -/
def reachesServing (c : LocalConnector) (s : Cycles) (a : Attempt) : Bool :=
  match established c s a with
  | some (.ok _) => true
  | _ => false

theorem phase_serving_iff {c : LocalConnector} {s s' : Cycles} {a : Attempt}
    {result : Except AnyError Unit} (h : connectAndServeOnce c s a = some (result, s')) :
    s'.state.phase = .serving ↔ reachesServing c s a = true := by
  unfold reachesServing
  cases hest : established c s a with
  | none =>
    unfold connectAndServeOnce at h
    rw [hest] at h
    cases h
  | some res =>
    cases res with
    | ok est => exact iff_of_true (connectAndServeOnce_serve h hest).2 rfl
    | error e =>
      unfold connectAndServeOnce at h
      simp only [hest] at h
      split at h
      · cases h
        refine iff_of_false ?_ Bool.false_ne_true
        unfold Attempt.failedPhase
        split <;> simp
      · cases h

/-- Of each attempt of a run, whether it got as far as serving. -/
def servings (c : LocalConnector) : Cycles → List Attempt → List Bool
  | _, [] => []
  | s, a :: as => reachesServing c s a :: match step c s a with
    | some t => servings c t as
    | none => []

/-- The attempt fails with an error the code retries, and no stop is requested. -/
def FailsRetriably (c : LocalConnector) (s : Cycles) (a : Attempt) : Prop :=
  a.stopAtStart = false ∧ a.stopInBackoff = false ∧
    ∃ e s', connectAndServeOnce c s.connecting a = some (.error e, s') ∧ isRetriable e = true

/-- `run_cycles` has returned a retriable error: the attempts have used up the budget. -/
def GaveUp (t : Cycles) : Prop := ∃ e, t.result = some (.error e) ∧ isRetriable e = true

/-- A failed attempt counts, whether it got as far as serving or not. -/
theorem step_failsRetriably {c : LocalConnector} {s t : Cycles} {a : Attempt}
    (h : step c s a = some t) (hf : FailsRetriably c s a) :
    t.attempt = s.attempt + 1 ∧
      ((GaveUp t ∧ s.attempt + 1 > c.maxRetries) ∨
        (t.result = none ∧ ¬ s.attempt + 1 > c.maxRetries)) := by
  obtain ⟨hstart, hbackoff, e, s₁, honce₁, he⟩ := hf
  obtain ⟨result, s', hattempt, hnone, -, honce, ht⟩ := step_attempt h hstart
  rw [honce₁] at honce
  cases honce
  subst ht
  simp only [hbackoff, Cycles.afterFailure, he, hattempt, not_true_eq_false, if_false]
  by_cases hgt : s.attempt + 1 > c.maxRetries
  · rw [if_pos hgt]
    exact ⟨rfl, .inl ⟨⟨e, rfl, he⟩, hgt⟩⟩
  · rw [if_neg hgt]
    exact ⟨rfl, .inr ⟨hnone, hgt⟩⟩

theorem run_of_returned {c : LocalConnector} {s t : Cycles} {as : List Attempt}
    (h : run (step c) s as = some t) (hs : s.result.isSome) : as = [] ∧ t = s := by
  cases as with
  | nil => exact ⟨rfl, (Option.some.inj h).symm⟩
  | cons a as =>
    obtain ⟨_, hstep, -⟩ := run_cons_eq_some.mp h
    rw [step, if_pos hs] at hstep
    cases hstep

/-- **The counter.** Whatever the attempts get to, the budget is used up by their number alone. -/
theorem gaveUp_iff_length {c : LocalConnector} {s t : Cycles} {as : List Attempt}
    (h : run (step c) s as = some t) (hf : Meets (step c) (FailsRetriably c) s as)
    (hs : s.result = none) (hle : s.attempt.toNat ≤ c.maxRetries.toNat)
    (hmax : c.maxRetries.toNat + 1 < 2 ^ 32) :
    s.attempt.toNat + as.length ≤ c.maxRetries.toNat + 1 ∧
      (GaveUp t ↔ s.attempt.toNat + as.length = c.maxRetries.toNat + 1) := by
  induction as generalizing s with
  | nil =>
    cases Option.some.inj h
    refine ⟨by rw [List.length_nil]; omega, ?_⟩
    refine iff_of_false ?_ (by rw [List.length_nil]; omega)
    rintro ⟨e, he, -⟩
    rw [hs] at he
    cases he
  | cons a as ih =>
    obtain ⟨s₁, hstep, hrun⟩ := run_cons_eq_some.mp h
    obtain ⟨hfa, hfas⟩ := (meets_cons hstep).mp hf
    obtain ⟨hcount, hcase⟩ := step_failsRetriably hstep hfa
    have hnat : (s.attempt + 1).toNat = s.attempt.toNat + 1 := by
      rw [UInt32.toNat_add, UInt32.toNat_one]
      omega
    rcases hcase with ⟨hgave, hgt⟩ | ⟨hnone, hgt⟩
    · rw [gt_iff_lt, UInt32.lt_iff_toNat_lt, hnat] at hgt
      obtain ⟨e, he, -⟩ := id hgave
      obtain ⟨rfl, rfl⟩ := run_of_returned hrun (by rw [he]; rfl)
      rw [List.length_singleton]
      exact ⟨by omega, iff_of_true hgave (by omega)⟩
    · rw [gt_iff_lt, UInt32.lt_iff_toNat_lt, hnat] at hgt
      have := ih hrun hfas hnone (by rw [hcount, hnat]; omega)
      rw [hcount, hnat] at this
      rw [List.length_cons]
      constructor
      · omega
      · rw [this.2]
        omega

/-- With the largest budget the counter wraps before it exceeds it. -/
theorem not_gaveUp_of_max {c : LocalConnector} {s t : Cycles} {as : List Attempt}
    (h : run (step c) s as = some t) (hf : Meets (step c) (FailsRetriably c) s as)
    (hs : s.result = none) (hmax : c.maxRetries.toNat + 1 = 2 ^ 32) : ¬ GaveUp t := by
  induction as generalizing s with
  | nil =>
    cases Option.some.inj h
    rintro ⟨e, he, -⟩
    rw [hs] at he
    cases he
  | cons a as ih =>
    obtain ⟨s₁, hstep, hrun⟩ := run_cons_eq_some.mp h
    obtain ⟨hfa, hfas⟩ := (meets_cons hstep).mp hf
    obtain ⟨-, ⟨-, hgt⟩ | ⟨hnone, -⟩⟩ := step_failsRetriably hstep hfa
    · rw [gt_iff_lt, UInt32.lt_iff_toNat_lt] at hgt
      have := (s.attempt + 1).toNat_lt
      omega
    · exact ih hrun hfas hnone

theorem servings_length {c : LocalConnector} {s t : Cycles} {as : List Attempt}
    (h : run (step c) s as = some t) : (servings c s as).length = as.length := by
  induction as generalizing s with
  | nil => rfl
  | cons a as ih =>
    obtain ⟨s₁, hstep, hrun⟩ := run_cons_eq_some.mp h
    rw [servings, hstep, List.length_cons, List.length_cons]
    rw [ih hrun]

/-- The last of the attempts are more than `n` in a row, and after the first of them none got as far as
    serving. -/
def FailedInARow (n : Nat) (served : List Bool) : Prop :=
  ∃ before first after, served = before ++ first :: after ∧ n ≤ after.length ∧ ∀ b ∈ after, b = false

/-- More than `n` attempts in a row, none of which got as far as serving. -/
def NoneServed (n : Nat) (served : List Bool) : Prop :=
  ∃ before after, served = before ++ after ∧ n < after.length ∧ ∀ b ∈ after, b = false

theorem failedInARow_iff {n : Nat} {served : List Bool} (hlen : served.length = n + 1) :
    FailedInARow n served ↔ ∀ b ∈ served.tail, b = false := by
  constructor
  · rintro ⟨before, first, after, rfl, hn, hafter⟩
    have hbefore : before = [] := by
      rw [← List.length_eq_zero_iff]
      rw [List.length_append, List.length_cons] at hlen
      omega
    rw [hbefore]
    exact hafter
  · intro h
    cases served with
    | nil => cases hlen
    | cons first after =>
      rw [List.length_cons] at hlen
      exact ⟨[], first, after, rfl, by omega, h⟩

theorem noneServed_iff {n : Nat} {served : List Bool} (hlen : served.length = n + 1) :
    NoneServed n served ↔ ∀ b ∈ served, b = false := by
  constructor
  · rintro ⟨before, after, rfl, hn, hafter⟩
    have hbefore : before = [] := by
      rw [← List.length_eq_zero_iff]
      rw [List.length_append] at hlen
      omega
    rw [hbefore]
    exact hafter
  · intro h
    exact ⟨[], served, rfl, by omega, h⟩

/-- **Giving up.** In every run of attempts that fail retriably: that the connector gives up only after more
    than `max_retries` failures in a row with no serving in between holds exactly when the budget is the
    largest one, or no more than `max_retries` attempts have been made in its whole life, or none but the
    first of them got as far as serving; and so for the stricter reading, by which the first may not either. -/
theorem gives_up_in_a_row_iff (c : LocalConnector) (as : List Attempt) (t : Cycles)
    (hrun : run (step c) .new as = some t) (hf : Meets (step c) (FailsRetriably c) .new as) :
    ((GaveUp t → FailedInARow c.maxRetries.toNat (servings c .new as)) ↔
      c.maxRetries.toNat + 1 = 2 ^ 32 ∨ as.length ≤ c.maxRetries.toNat ∨
        ∀ b ∈ (servings c .new as).tail, b = false) ∧
    ((GaveUp t → NoneServed c.maxRetries.toNat (servings c .new as)) ↔
      c.maxRetries.toNat + 1 = 2 ^ 32 ∨ as.length ≤ c.maxRetries.toNat ∨
        ∀ b ∈ servings c .new as, b = false) := by
  have hlen := servings_length hrun
  by_cases hmax : c.maxRetries.toNat + 1 = 2 ^ 32
  · have hnot := not_gaveUp_of_max hrun hf rfl hmax
    exact ⟨iff_of_true (fun h => absurd h hnot) (.inl hmax),
      iff_of_true (fun h => absurd h hnot) (.inl hmax)⟩
  · have hlt := c.maxRetries.toNat_lt
    obtain ⟨hle, hgave⟩ := gaveUp_iff_length hrun hf rfl (Nat.zero_le _) (by omega)
    have hzero : (Cycles.new.attempt).toNat = 0 := rfl
    rw [hzero, Nat.zero_add] at hle hgave
    by_cases hfull : as.length = c.maxRetries.toNat + 1
    · rw [failedInARow_iff (hlen.trans hfull), noneServed_iff (hlen.trans hfull)]
      have hyes := hgave.mpr hfull
      have hnot : ¬ as.length ≤ c.maxRetries.toNat := by omega
      exact ⟨by tauto, by tauto⟩
    · have hshort : as.length ≤ c.maxRetries.toNat := by omega
      have hno : ¬ GaveUp t := fun h => hfull (hgave.mp h)
      exact ⟨iff_of_true (fun h => absurd h hno) (.inr (.inl hshort)),
        iff_of_true (fun h => absurd h hno) (.inr (.inl hshort))⟩

/-- Two attempts with a budget of one: the relay refuses both, and the connector gives up. -/
theorem gives_up_in_a_row_iff_refused :
    ∃ (a : Attempt) (t : Cycles), run (step (exampleConnector 1)) .new [a, a] = some t ∧ GaveUp t ∧
      FailedInARow 1 (servings (exampleConnector 1) .new [a, a]) := by
  let a : Attempt := ⟨false, [], .failed ⟨.connectionRefused, "refused"⟩, .ok (), [], [], false⟩
  let t : Cycles := (run (step (exampleConnector 1)) .new [a, a]).getD .new
  have hrun : run (step (exampleConnector 1)) .new [a, a] = some t := rfl
  have hf : Meets (step (exampleConnector 1)) (FailsRetriably (exampleConnector 1)) .new [a, a] := by
    refine ⟨⟨rfl, rfl, _, _, rfl, rfl⟩, ?_⟩
    intro t₁ ht₁
    cases ht₁
    exact ⟨⟨rfl, rfl, _, _, rfl, rfl⟩, fun _ _ => trivial⟩
  have hgave : GaveUp t := ⟨_, rfl, rfl⟩
  refine ⟨a, t, hrun, hgave, ?_⟩
  apply (gives_up_in_a_row_iff (exampleConnector 1) [a, a] t hrun hf).1.mpr
  · exact .inr (.inr (by decide))
  · exact hgave

/-- A connector with a budget of one that establishes its session twice, and loses it twice, gives up. -/
theorem gives_up_between_servings :
    ¬ ∀ (c : LocalConnector) (as : List Attempt) (t : Cycles), run (step c) .new as = some t →
      Meets (step c) (FailsRetriably c) .new as → GaveUp t →
      FailedInARow c.maxRetries.toNat (servings c .new as) := by
  intro h
  -- the second attempt resumes the session of the first
  let a := servedUntil (.recvFailed .connectionClosed)
  let t : Cycles := (run (step (exampleConnector 1)) .new [a, a]).getD .new
  have hf : Meets (step (exampleConnector 1)) (FailsRetriably (exampleConnector 1)) .new [a, a] := by
    refine ⟨⟨rfl, rfl, _, _, rfl, rfl⟩, ?_⟩
    intro t₁ ht₁
    cases ht₁
    exact ⟨⟨rfl, rfl, _, _, rfl, rfl⟩, fun _ _ => trivial⟩
  have hrow := h (exampleConnector 1) [a, a] t rfl hf ⟨_, rfl, rfl⟩
  have hserved : servings (exampleConnector 1) .new [a, a] = [true, true] := rfl
  rw [hserved, failedInARow_iff rfl] at hrow
  cases hrow true List.mem_cons_self

end RemoteX11.Client.Connector
