/-
  `SessionManager` and the calls that run on it (`session/mod.rs`, `session/xauth.rs`, and the parts of
  `x11_listener.rs` and `relay/connection.rs` that call it).

  A call is a list of critical sections with awaits between them, so it is a program counter here and
  each step of it is one section: what it does under the locks it holds at once. Any number of calls
  may be in progress and their steps interleave freely. A call names itself by its place in its pool.

  `create_session` binds the port, puts the accept loop's handle into `listeners`, installs the cookie
  and inserts the session; `destroy_session` takes all of it down again, section by section; a grace
  task sleeps, looks at its flag, takes a snapshot and destroys; `handle_x11_connection` waits for the
  ingress of its display and registers its connection in two maps.

  What a step cannot decide by itself is in the action: whether the port can be bound, whether `xauth`
  succeeds, and the uuid that is drawn, which is never drawn twice.
-/
import RemoteX11.Lib.Run
import RemoteX11.Lib.Table
import RemoteX11.Sessions.Destroy

namespace RemoteX11.Sessions

open RemoteX11.Lib RemoteX11.Protocol

/-! ## Calls -/

structure Session where
  id : SessionId
  display : DisplayNumber
  authName : String
  authData : Bytes
  clientId : String
  deriving DecidableEq, Repr

/-- Where `create_session_at` stands, with the choice of `create_session_auto` before it and the
    registration of the ingress by `send_session_ack` after it. -/
inductive CreatePhase where
  /-- look for a free display -/
  | choosing
  /-- bind the port -/
  | binding
  /-- the port is bound: put the handle into `listeners` -/
  | listing
  /-- `xauth add` -/
  | installing
  /-- `xauth add` failed: unbind -/
  | unwinding (error : String)
  /-- insert the session -/
  | inserting
  /-- the display has a session: unbind, then `xauth remove` -/
  | inUseUnbinding
  | inUseRemoving
  | returnedOk (session : Session)
  /-- the ingress of the client is registered -/
  | acked (session : Session)
  | returnedErr (error : Rx11Error)
  deriving DecidableEq, Repr

structure CreateCall where
  display : DisplayNumber
  authName : String
  authData : Bytes
  clientId : String
  phase : CreatePhase
  deriving DecidableEq, Repr

/-- `try_resume_session`, with the registration of the ingress after it. -/
inductive ResumePhase where
  /-- find the session and change its owner -/
  | finding
  /-- cancel the grace task of its display -/
  | cancelling (session : Session)
  | returnedOk (session : Session)
  | acked (session : Session)
  | returnedErr (error : Rx11Error)
  deriving DecidableEq, Repr

structure ResumeCall where
  id : SessionId
  clientId : String
  phase : ResumePhase
  deriving DecidableEq, Repr

/-- A call of `destroy_session`. -/
structure DestroyCall where
  display : DisplayNumber
  /-- the grace task that makes the call -/
  grace : Option Nat
  phase : DestroyPhase
  deriving DecidableEq, Repr

/-- The task of `release_session`. -/
inductive GracePhase where
  | sleeping
  /-- the timer has fired and the flag was not set -/
  | checked
  /-- `all` is the snapshot, `rest` is to be destroyed yet -/
  | destroying (all rest : List DisplayNumber)
  /-- a `destroy_session` call is awaited -/
  | awaiting (call : Nat) (all rest : List DisplayNumber)
  | ended
  deriving DecidableEq, Repr

structure GraceTask where
  client : String
  /-- the flag shared with `grace_tasks` -/
  cancelled : Bool
  /-- the sessions of the release -/
  released : List (DisplayNumber × SessionId)
  /-- the sessions resumed since then -/
  resumed : List SessionId
  phase : GracePhase
  deriving DecidableEq, Repr

/-- `handle_x11_connection`. -/
inductive AppPhase where
  /-- waits for the ingress of its display -/
  | accepted
  /-- has the ingress; `register_x11_connection` checks the limit next -/
  | attached
  /-- within the limit: insert into `connections` -/
  | inserting
  /-- insert into `display_conns` -/
  | listing
  /-- registered and in its legs -/
  | registered
  | refused (error : Rx11Error)
  | ended
  deriving DecidableEq, Repr

structure App where
  connectionId : ConnectionId
  display : DisplayNumber
  /-- the call whose accept loop it came through -/
  origin : Nat
  /-- the client whose event channel it holds -/
  relay : Option String
  phase : AppPhase
  deriving DecidableEq, Repr

/-- `unregister_x11_connection`; the lock of `connections` is held until the end. -/
inductive UnregisterPhase where
  | removing
  | unlisting (disp : DisplayNumber)
  | done
  deriving DecidableEq, Repr

structure UnregisterCall where
  connectionId : ConnectionId
  phase : UnregisterPhase
  deriving DecidableEq, Repr

/-! ## The manager -/

structure Manager where
  sessions : Table DisplayNumber Session
  /-- the accept loop that holds the port of a display, by the call that bound it -/
  ports : Table DisplayNumber Nat
  /-- `X11Listener.listeners` -/
  listeners : Table DisplayNumber Nat
  /-- the name and cookie of a display in the xauth file -/
  xauth : Table DisplayNumber (String × Bytes)
  /-- the client whose ingress is registered; the id is drawn for its transport, so it names one relay -/
  connToRelay : Table DisplayNumber String
  connections : Table ConnectionId DisplayNumber
  displayConns : Table DisplayNumber (List ConnectionId)
  /-- the task whose flag a display's entry holds -/
  graceTasks : Table DisplayNumber Nat
  /-- the uuids drawn so far -/
  issued : List SessionId
  creates : List CreateCall
  resumes : List ResumeCall
  destroys : List DestroyCall
  graces : List GraceTask
  apps : List App
  unregisters : List UnregisterCall
  /-- the sessions removed by the `destroy_session` calls of a grace task -/
  expired : List (Nat × SessionId)
  deriving DecidableEq, Repr

inductive Action where
  | create (disp : DisplayNumber) (authName : String) (authData : Bytes) (client : String)
  | createAuto (authName : String) (authData : Bytes) (client : String)
  /-- `failure` is the error of the system call of this section, `id` the uuid it draws -/
  | createStep (i : Nat) (failure : Option String) (id : SessionId)
  | resume (id : SessionId) (client : String)
  | resumeStep (i : Nat)
  | destroy (disp : DisplayNumber)
  | destroyStep (i : Nat)
  | release (client : String)
  /-- the timer of a grace task fires, or its task goes on -/
  | graceStep (i : Nat)
  /-- an application connects to the port of a display; `c` is the id it draws, 32 bits of a counter -/
  | accept (port : DisplayNumber) (c : ConnectionId)
  | appStep (i : Nat)
  /-- it gives up waiting, or its legs end -/
  | appEnd (i : Nat)
  /-- the relay unregisters a connection that was reported as ended -/
  | unregister (c : ConnectionId)
  | unregisterStep (i : Nat)
  /-- the handler of `SessionDestroy`, before it calls `destroy_session` -/
  | unregisterRelay (disp : DisplayNumber)
  deriving DecidableEq, Repr

/-- `MAX_X11_CONNECTIONS_PER_DISPLAY`. -/
def maxX11ConnectionsPerDisplay : Nat := 64

/-- The display that the accept loop of a port reports: `bind_display` falls back to `:0` for a number
    that `DisplayNumber::new` rejects. -/
def listenerDisplay (port : DisplayNumber) : DisplayNumber :=
  match DisplayNumber.new port.raw with
  | .ok disp => disp
  | .error _ => .unspecified

def GraceTask.cancel (t : GraceTask) : GraceTask := { t with cancelled := true }

/-- A session is resumed while the task exists. -/
def GraceTask.noteResumed (id : SessionId) (t : GraceTask) : GraceTask :=
  { t with resumed := id :: t.resumed }

namespace Manager

def connsOf (m : Manager) (disp : DisplayNumber) : List ConnectionId :=
  (m.displayConns.get disp).getD []

/-- `unbind_display`: the handle is taken out and its accept loop aborted. -/
def unbindDisplay (m : Manager) (disp : DisplayNumber) : Manager :=
  match m.listeners.get disp with
  | some handle => { m with
      listeners := m.listeners.remove disp
      ports := if m.ports.get disp = some handle then m.ports.remove disp else m.ports }
  | none => m

/-- No `unregister_x11_connection` holds the lock of `connections`. -/
def connectionsFree (m : Manager) : Bool :=
  m.unregisters.all fun u =>
    match u.phase with
    | .unlisting _ => false
    | _ => true

/-- The first display without a session, as `create_session_auto` looks for it. -/
def firstFree (m : Manager) : Option DisplayNumber :=
  ((List.range (maxDisplayNumber + 1)).map fun n => (⟨UInt16.ofNat n⟩ : DisplayNumber)).find?
    fun disp => (m.sessions.get disp).isNone

def setCreate (m : Manager) (i : Nat) (call : CreateCall) (phase : CreatePhase) : Manager :=
  { m with creates := m.creates.set i { call with phase := phase } }

def createStep (m : Manager) (i : Nat) (call : CreateCall) (failure : Option String)
    (id : SessionId) : Option Manager :=
  let disp := call.display
  let num := disp.raw
  match call.phase with
  | .choosing =>
    match m.firstFree with
    | some free => some (m.setCreate i { call with display := free } .binding)
    | none => some (m.setCreate i call (.returnedErr (.protocol "No available display number")))
  | .binding =>
    match failure with
    | some e => some (m.setCreate i call (.returnedErr
        (.protocol s!"Failed to bind X11 port for display :{num}: {e}")))
    | none =>
      -- a port that is bound already cannot be bound
      match m.ports.get disp with
      | some _ => none
      | none => some ({ m with ports := m.ports.put disp i }.setCreate i call .listing)
  | .listing =>
    some ({ m with listeners := m.listeners.put disp i }.setCreate i call .installing)
  | .installing =>
    match failure with
    | some e => some (m.setCreate i call (.unwinding e))
    | none =>
      some ({ m with xauth := m.xauth.put disp (call.authName, call.authData) }.setCreate i call
        .inserting)
  | .unwinding e =>
    some ((m.unbindDisplay disp).setCreate i call (.returnedErr
      (.protocol s!"xauth setup failed for display :{num}: {e}")))
  | .inserting =>
    match m.sessions.get disp with
    | some _ => some (m.setCreate i call .inUseUnbinding)
    | none =>
      if id ∈ m.issued then none
      else
        let session : Session := ⟨id, disp, call.authName, call.authData, call.clientId⟩
        some ({ m with
          sessions := m.sessions.put disp session
          issued := id :: m.issued }.setCreate i call (.returnedOk session))
  | .inUseUnbinding => some ((m.unbindDisplay disp).setCreate i call .inUseRemoving)
  | .inUseRemoving =>
    some ({ m with xauth := m.xauth.remove disp }.setCreate i call (.returnedErr
      (.protocol s!"Display :{num} already in use")))
  | .returnedOk session =>
    some ({ m with connToRelay := m.connToRelay.put disp call.clientId }.setCreate i call
      (.acked session))
  | .acked _ => none
  | .returnedErr _ => none

def setResume (m : Manager) (i : Nat) (call : ResumeCall) (phase : ResumePhase) : Manager :=
  { m with resumes := m.resumes.set i { call with phase := phase } }

def resumeStep (m : Manager) (i : Nat) (call : ResumeCall) : Option Manager :=
  match call.phase with
  | .finding =>
    match (m.sessions.entries.map Prod.snd).find? fun session => session.id = call.id with
    | some session =>
      let updated := { session with clientId := call.clientId }
      some ({ m with
        sessions := m.sessions.put session.display updated
        graces := m.graces.map (GraceTask.noteResumed session.id) }.setResume i call
          (.cancelling updated))
    | none =>
      let sid := call.id.raw
      some (m.setResume i call (.returnedErr (.protocol s!"Session {sid} not found or expired")))
  | .cancelling session =>
    match m.graceTasks.get session.display with
    | some g =>
      some ({ m with
        graceTasks := m.graceTasks.remove session.display
        graces := m.graces.modify g GraceTask.cancel }.setResume i call (.returnedOk session))
    | none => some (m.setResume i call (.returnedOk session))
  | .returnedOk session =>
    some ({ m with
      connToRelay := m.connToRelay.put session.display call.clientId }.setResume i call
        (.acked session))
  | .acked _ => none
  | .returnedErr _ => none

def setDestroy (m : Manager) (i : Nat) (call : DestroyCall) (phase : DestroyPhase) : Manager :=
  { m with destroys := m.destroys.set i { call with phase := phase } }

/-- The session that the `destroy_session` of a grace task removes. -/
def expiredBy (m : Manager) (call : DestroyCall) : List (Nat × SessionId) :=
  match call.grace, m.sessions.get call.display with
  | some g, some session => [(g, session.id)]
  | _, _ => []

/-- What `destroy_session` does to the manager. It takes no step here while it has to wait; what it waits
    for between two `Close` is in the model of the channels. -/
def destroyParts (call : DestroyCall) : DestroyParts Manager where
  cancelGrace m :=
    match m.graceTasks.get call.display with
    | some g => { m with
        graceTasks := m.graceTasks.remove call.display
        graces := m.graces.modify g GraceTask.cancel }
    | none => m
  unbindDisplay m := m.unbindDisplay call.display
  takeConns m :=
    match m.displayConns.get call.display with
    | some ids => (some ids, { m with displayConns := m.displayConns.remove call.display })
    | none => (none, m)
  close ids m :=
    -- the lock of `connections` is held while every connection is told to close
    if m.connectionsFree then some ([], { m with connections := m.connections.removeAll ids })
    else none
  xauthRemove m := { m with xauth := m.xauth.remove call.display }
  removeRelay m := { m with connToRelay := m.connToRelay.remove call.display }
  removeSession m := { m with
    sessions := m.sessions.remove call.display
    expired := m.expired ++ m.expiredBy call }

def destroyStep (m : Manager) (i : Nat) (call : DestroyCall) : Option Manager :=
  ((destroyParts call).next m call.phase).map fun (phase, t) => t.setDestroy i call phase

/-- `release_session`, up to the spawn of its task: both tables are locked at once. -/
def release (m : Manager) (client : String) : Manager :=
  let matching := (m.sessions.entries.filter fun e => e.2.clientId = client).map fun e =>
    (e.1, e.2.id)
  if matching = [] then m
  else { m with
    graceTasks := matching.foldl (fun tasks x => tasks.put x.1 m.graces.length) m.graceTasks
    graces := (matching.filterMap fun x => m.graceTasks.get x.1).foldl
      (fun graces g => graces.modify g GraceTask.cancel) m.graces ++
        [⟨client, false, matching, [], .sleeping⟩] }

def setGrace (m : Manager) (i : Nat) (task : GraceTask) (phase : GracePhase) : Manager :=
  { m with graces := m.graces.set i { task with phase := phase } }

def graceStep (m : Manager) (i : Nat) (task : GraceTask) : Option Manager :=
  match task.phase with
  | .sleeping =>
    if task.cancelled then some (m.setGrace i task .ended) else some (m.setGrace i task .checked)
  | .checked =>
    let owned := (m.sessions.entries.filter fun e => e.2.clientId = task.client).map Prod.fst
    some (m.setGrace i task (.destroying owned owned))
  | .destroying all [] =>
    some ({ m with graceTasks := m.graceTasks.removeAll all }.setGrace i task .ended)
  | .destroying all (disp :: rest) =>
    match DisplayNumber.new disp.raw with
    | .ok disp =>
      some ({ m with
        destroys := m.destroys ++ [DestroyCall.mk disp (some i) .cancelGrace] }.setGrace i task
          (.awaiting m.destroys.length all rest))
    | .error _ => some (m.setGrace i task (.destroying all rest))
  | .awaiting call all rest =>
    match m.destroys[call]? with
    | some ⟨_, _, .done⟩ => some (m.setGrace i task (.destroying all rest))
    | _ => none
  | .ended => none

def setApp (m : Manager) (i : Nat) (app : App) (phase : AppPhase) : Manager :=
  { m with apps := m.apps.set i { app with phase := phase } }

def appStep (m : Manager) (i : Nat) (app : App) : Option Manager :=
  let disp := app.display
  let num := disp.raw
  match app.phase with
  | .accepted =>
    match m.connToRelay.get disp with
    | some relay => some (m.setApp i { app with relay := some relay } .attached)
    | none => none
  | .attached =>
    if maxX11ConnectionsPerDisplay ≤ (m.connsOf disp).length then
      some (m.setApp i app (.refused (.protocol
        s!"Too many X11 connections for display :{num} (max {maxX11ConnectionsPerDisplay})")))
    else some (m.setApp i app .inserting)
  | .inserting =>
    if m.connectionsFree then
      some ({ m with connections := m.connections.put app.connectionId disp }.setApp i app .listing)
    else none
  | .listing =>
    some ({ m with
      displayConns := m.displayConns.put disp ((m.connsOf disp).insert app.connectionId) }.setApp
        i app .registered)
  | .registered => none
  | .refused _ => none
  | .ended => none

def appEnd (m : Manager) (i : Nat) (app : App) : Option Manager :=
  match app.phase with
  | .accepted => some (m.setApp i app .ended)
  | .registered =>
    some ({ m with
      unregisters := m.unregisters ++ [UnregisterCall.mk app.connectionId .removing] }.setApp i app
        .ended)
  | _ => none

def setUnregister (m : Manager) (i : Nat) (call : UnregisterCall) (phase : UnregisterPhase) :
    Manager :=
  { m with unregisters := m.unregisters.set i { call with phase := phase } }

def unregisterStep (m : Manager) (i : Nat) (call : UnregisterCall) : Option Manager :=
  match call.phase with
  | .removing =>
    if m.connectionsFree then
      match m.connections.get call.connectionId with
      | some disp =>
        some ({ m with connections := m.connections.remove call.connectionId }.setUnregister i call
          (.unlisting disp))
      | none => some (m.setUnregister i call .done)
    else none
  | .unlisting disp =>
    match m.displayConns.get disp with
    | some ids =>
      some ({ m with
        displayConns := m.displayConns.put disp (ids.filter (· ≠ call.connectionId)) }.setUnregister
          i call .done)
    | none => some (m.setUnregister i call .done)
  | .done => none

def step (m : Manager) : Action → Option Manager
  | .create disp authName authData client =>
    some { m with creates := m.creates ++ [⟨disp, authName, authData, client, .binding⟩] }
  | .createAuto authName authData client =>
    some { m with
      creates := m.creates ++ [⟨.unspecified, authName, authData, client, .choosing⟩] }
  | .createStep i failure id => m.creates[i]?.bind fun call => m.createStep i call failure id
  | .resume id client => some { m with resumes := m.resumes ++ [⟨id, client, .finding⟩] }
  | .resumeStep i => m.resumes[i]?.bind fun call => m.resumeStep i call
  | .destroy disp => some { m with destroys := m.destroys ++ [⟨disp, none, .cancelGrace⟩] }
  | .destroyStep i => m.destroys[i]?.bind fun call => m.destroyStep i call
  | .release client => some (m.release client)
  | .graceStep i => m.graces[i]?.bind fun task => m.graceStep i task
  | .accept port c =>
    (m.ports.get port).map fun handle =>
      { m with apps := m.apps ++ [⟨c, listenerDisplay port, handle, none, .accepted⟩] }
  | .appStep i => m.apps[i]?.bind fun app => m.appStep i app
  | .appEnd i => m.apps[i]?.bind fun app => m.appEnd i app
  | .unregister c =>
    if m.apps.any fun app => app.connectionId = c ∧ app.phase = .ended then
      some { m with unregisters := m.unregisters ++ [UnregisterCall.mk c .removing] }
    else none
  | .unregisterStep i => m.unregisters[i]?.bind fun call => m.unregisterStep i call
  | .unregisterRelay disp => some { m with connToRelay := m.connToRelay.remove disp }

/-- A server that has just started. -/
def init : Manager where
  sessions := .empty
  ports := .empty
  listeners := .empty
  xauth := .empty
  connToRelay := .empty
  connections := .empty
  displayConns := .empty
  graceTasks := .empty
  issued := []
  creates := []
  resumes := []
  destroys := []
  graces := []
  apps := []
  unregisters := []
  expired := []

/-- `owns_session`. -/
def ownsSession (m : Manager) (disp : DisplayNumber) (client : String) : Bool :=
  match m.sessions.get disp with
  | some session => session.clientId == client
  | none => false

/-- `owns_connection`, which also decides `route_to_x11`. -/
def ownsConnection (m : Manager) (c : ConnectionId) (client : String) : Bool :=
  match m.connections.get c with
  | some disp => m.ownsSession disp client
  | none => false

/-! ## What a step of a call can do -/

variable {m t : Manager}

/-- What a section of `create_session` can do. -/
inductive CreateStep (m : Manager) (i : Nat) (call : CreateCall) (failure : Option String)
    (id : SessionId) : Manager → Prop
  | choose {free : DisplayNumber} (hp : call.phase = .choosing) (hfree : m.firstFree = some free) :
    CreateStep m i call failure id (m.setCreate i { call with display := free } .binding)
  | taken {error : Rx11Error} (hp : call.phase = .choosing) :
    CreateStep m i call failure id (m.setCreate i call (.returnedErr error))
  | unbound {error : Rx11Error} (hp : call.phase = .binding) :
    CreateStep m i call failure id (m.setCreate i call (.returnedErr error))
  | bind (hp : call.phase = .binding) (hok : failure = none)
      (hport : m.ports.get call.display = none) :
    CreateStep m i call failure id
      ({ m with ports := m.ports.put call.display i }.setCreate i call .listing)
  | list (hp : call.phase = .listing) :
    CreateStep m i call failure id
      ({ m with listeners := m.listeners.put call.display i }.setCreate i call .installing)
  | reject {error : String} (hp : call.phase = .installing) :
    CreateStep m i call failure id (m.setCreate i call (.unwinding error))
  | install (hp : call.phase = .installing) :
    CreateStep m i call failure id ({ m with
      xauth := m.xauth.put call.display (call.authName, call.authData) }.setCreate i call .inserting)
  | unwind {e : String} {error : Rx11Error} (hp : call.phase = .unwinding e) :
    CreateStep m i call failure id
      ((m.unbindDisplay call.display).setCreate i call (.returnedErr error))
  | inUse (hp : call.phase = .inserting) (hsession : m.sessions.get call.display ≠ none) :
    CreateStep m i call failure id (m.setCreate i call .inUseUnbinding)
  | insert (hp : call.phase = .inserting) (hsession : m.sessions.get call.display = none)
      (hfresh : id ∉ m.issued) :
    CreateStep m i call failure id ({ m with
      sessions := m.sessions.put call.display
        ⟨id, call.display, call.authName, call.authData, call.clientId⟩
      issued := id :: m.issued }.setCreate i call (.returnedOk
        ⟨id, call.display, call.authName, call.authData, call.clientId⟩))
  | unbindInUse (hp : call.phase = .inUseUnbinding) :
    CreateStep m i call failure id ((m.unbindDisplay call.display).setCreate i call .inUseRemoving)
  | removeInUse {error : Rx11Error} (hp : call.phase = .inUseRemoving) :
    CreateStep m i call failure id
      ({ m with xauth := m.xauth.remove call.display }.setCreate i call (.returnedErr error))
  | ack {session : Session} (hp : call.phase = .returnedOk session) :
    CreateStep m i call failure id ({ m with
      connToRelay := m.connToRelay.put call.display call.clientId }.setCreate i call (.acked session))

theorem createStep_cases {i : Nat} {call : CreateCall} {failure : Option String} {id : SessionId}
    (h : m.createStep i call failure id = some t) : CreateStep m i call failure id t := by
  unfold createStep at h
  cases hp : call.phase <;> simp only [hp] at h
  case choosing =>
    split at h
    · obtain rfl := Option.some.inj h
      exact .choose hp ‹_›
    · obtain rfl := Option.some.inj h
      exact .taken hp
  case binding =>
    split at h
    · obtain rfl := Option.some.inj h
      exact .unbound hp
    · split at h
      · contradiction
      · obtain rfl := Option.some.inj h
        exact .bind hp rfl ‹_›
  case listing =>
    obtain rfl := Option.some.inj h
    exact .list hp
  case installing =>
    split at h
    · obtain rfl := Option.some.inj h
      exact .reject hp
    · obtain rfl := Option.some.inj h
      exact .install hp
  case unwinding =>
    obtain rfl := Option.some.inj h
    exact .unwind hp
  case inserting =>
    split at h
    · rename_i hsession
      obtain rfl := Option.some.inj h
      exact .inUse hp (by simp [hsession])
    · split at h
      · contradiction
      · obtain rfl := Option.some.inj h
        exact .insert hp ‹_› ‹_›
  case inUseUnbinding =>
    obtain rfl := Option.some.inj h
    exact .unbindInUse hp
  case inUseRemoving =>
    obtain rfl := Option.some.inj h
    exact .removeInUse hp
  case returnedOk =>
    obtain rfl := Option.some.inj h
    exact .ack hp
  all_goals contradiction

/-- What a section of `try_resume_session` can do. -/
inductive ResumeStep (m : Manager) (i : Nat) (call : ResumeCall) : Manager → Prop
  | find {session : Session} (hp : call.phase = .finding)
      (hfind : ((m.sessions.entries.map Prod.snd).find? fun s => s.id = call.id) = some session) :
    ResumeStep m i call ({ m with
      sessions := m.sessions.put session.display { session with clientId := call.clientId }
      graces := m.graces.map (GraceTask.noteResumed session.id) }.setResume i call
        (.cancelling { session with clientId := call.clientId }))
  | missing {error : Rx11Error} (hp : call.phase = .finding) :
    ResumeStep m i call (m.setResume i call (.returnedErr error))
  | cancel {session : Session} {g : Nat} (hp : call.phase = .cancelling session)
      (hg : m.graceTasks.get session.display = some g) :
    ResumeStep m i call ({ m with
      graceTasks := m.graceTasks.remove session.display
      graces := m.graces.modify g GraceTask.cancel }.setResume i call (.returnedOk session))
  | noGrace {session : Session} (hp : call.phase = .cancelling session)
      (hg : m.graceTasks.get session.display = none) :
    ResumeStep m i call (m.setResume i call (.returnedOk session))
  | ack {session : Session} (hp : call.phase = .returnedOk session) :
    ResumeStep m i call ({ m with
      connToRelay := m.connToRelay.put session.display call.clientId }.setResume i call
        (.acked session))

theorem resumeStep_cases {i : Nat} {call : ResumeCall} (h : m.resumeStep i call = some t) :
    ResumeStep m i call t := by
  unfold resumeStep at h
  cases hp : call.phase <;> simp only [hp] at h
  case finding =>
    split at h
    · obtain rfl := Option.some.inj h
      exact .find hp ‹_›
    · obtain rfl := Option.some.inj h
      exact .missing hp
  case cancelling =>
    split at h
    · obtain rfl := Option.some.inj h
      exact .cancel hp ‹_›
    · obtain rfl := Option.some.inj h
      exact .noGrace hp ‹_›
  case returnedOk =>
    obtain rfl := Option.some.inj h
    exact .ack hp
  all_goals contradiction

/-- What a section of `destroy_session` can do. -/
inductive DestroyStep (m : Manager) (i : Nat) (call : DestroyCall) : Manager → Prop
  | cancel {g : Nat} (hp : call.phase = .cancelGrace)
      (hg : m.graceTasks.get call.display = some g) :
    DestroyStep m i call ({ m with
      graceTasks := m.graceTasks.remove call.display
      graces := m.graces.modify g GraceTask.cancel }.setDestroy i call .unbind)
  | noGrace (hp : call.phase = .cancelGrace) (hg : m.graceTasks.get call.display = none) :
    DestroyStep m i call (m.setDestroy i call .unbind)
  | unbind (hp : call.phase = .unbind) :
    DestroyStep m i call ((m.unbindDisplay call.display).setDestroy i call .takeConns)
  | take {ids : List ConnectionId} (hp : call.phase = .takeConns)
      (hids : m.displayConns.get call.display = some ids) :
    DestroyStep m i call ({ m with
      displayConns := m.displayConns.remove call.display }.setDestroy i call (.closing ids))
  | noConns (hp : call.phase = .takeConns) (hids : m.displayConns.get call.display = none) :
    DestroyStep m i call (m.setDestroy i call .xauthRemove)
  | close {ids : List ConnectionId} (hp : call.phase = .closing ids)
      (hfree : m.connectionsFree = true) :
    DestroyStep m i call ({ m with
      connections := m.connections.removeAll ids }.setDestroy i call .xauthRemove)
  | removeCookie (hp : call.phase = .xauthRemove) :
    DestroyStep m i call ({ m with
      xauth := m.xauth.remove call.display }.setDestroy i call .removeRelay)
  | removeRelay (hp : call.phase = .removeRelay) :
    DestroyStep m i call ({ m with
      connToRelay := m.connToRelay.remove call.display }.setDestroy i call .removeSession)
  | removeSession (hp : call.phase = .removeSession) :
    DestroyStep m i call ({ m with
      sessions := m.sessions.remove call.display
      expired := m.expired ++ m.expiredBy call }.setDestroy i call .done)

theorem DestroyStep.taken {i : Nat} {call : DestroyCall} (h : DestroyStep m i call t) :
    m.destroyStep i call = some t := by
  cases h with
  | cancel hp hg | noGrace hp hg => simp [destroyStep, DestroyParts.next, destroyParts, hp, hg]
  | take hp hids | noConns hp hids => simp [destroyStep, DestroyParts.next, destroyParts, hp, hids]
  | close hp hfree => simp [destroyStep, DestroyParts.next, destroyParts, hp, hfree]
  | unbind hp | removeCookie hp | removeRelay hp | removeSession hp =>
    simp [destroyStep, DestroyParts.next, destroyParts, hp]

/-- A call takes its next section, unless it has returned or waits for the lock of `connections`. -/
theorem destroyStep_next (m : Manager) (i : Nat) (call : DestroyCall) :
    (∃ t, DestroyStep m i call t) ∨ m.destroyStep i call = none ∧
      (call.phase = .done ∨ (∃ ids, call.phase = .closing ids) ∧ m.connectionsFree = false) := by
  cases hp : call.phase with
  | cancelGrace =>
    cases hg : m.graceTasks.get call.display with
    | some g => exact .inl ⟨_, .cancel hp hg⟩
    | none => exact .inl ⟨_, .noGrace hp hg⟩
  | unbind => exact .inl ⟨_, .unbind hp⟩
  | takeConns =>
    cases hids : m.displayConns.get call.display with
    | some ids => exact .inl ⟨_, .take hp hids⟩
    | none => exact .inl ⟨_, .noConns hp hids⟩
  | closing ids =>
    cases hfree : m.connectionsFree with
    | true => exact .inl ⟨_, .close hp hfree⟩
    | false =>
      refine .inr ⟨?_, .inr ⟨⟨ids, rfl⟩, rfl⟩⟩
      simp [destroyStep, DestroyParts.next, destroyParts, hp, hfree]
  | xauthRemove => exact .inl ⟨_, .removeCookie hp⟩
  | removeRelay => exact .inl ⟨_, .removeRelay hp⟩
  | removeSession => exact .inl ⟨_, .removeSession hp⟩
  | done =>
    refine .inr ⟨?_, .inl rfl⟩
    simp [destroyStep, DestroyParts.next, hp]

theorem destroyStep_cases {i : Nat} {call : DestroyCall} (h : m.destroyStep i call = some t) :
    DestroyStep m i call t := by
  rcases destroyStep_next m i call with ⟨t', hstep⟩ | ⟨hnone, -⟩
  · exact Option.some.inj (hstep.taken.symm.trans h) ▸ hstep
  · rw [hnone] at h
    contradiction

/-- What a step of a grace task can do. -/
inductive GraceStep (m : Manager) (i : Nat) (task : GraceTask) : Manager → Prop
  | cancelled (hp : task.phase = .sleeping) (hflag : task.cancelled = true) :
    GraceStep m i task (m.setGrace i task .ended)
  | fire (hp : task.phase = .sleeping) (hflag : task.cancelled = false) :
    GraceStep m i task (m.setGrace i task .checked)
  | snapshot {owned : List DisplayNumber} (hp : task.phase = .checked)
      (howned : owned =
        (m.sessions.entries.filter fun e => e.2.clientId = task.client).map Prod.fst) :
    GraceStep m i task (m.setGrace i task (.destroying owned owned))
  | finish {all : List DisplayNumber} (hp : task.phase = .destroying all []) :
    GraceStep m i task
      ({ m with graceTasks := m.graceTasks.removeAll all }.setGrace i task .ended)
  | destroy {all rest : List DisplayNumber} {disp disp' : DisplayNumber}
      (hp : task.phase = .destroying all (disp :: rest)) (hnew : DisplayNumber.new disp.raw = .ok disp') :
    GraceStep m i task ({ m with
      destroys := m.destroys ++ [DestroyCall.mk disp' (some i) .cancelGrace] }.setGrace i task
        (.awaiting m.destroys.length all rest))
  | skip {all rest : List DisplayNumber} {disp : DisplayNumber} {error : Rx11Error}
      (hp : task.phase = .destroying all (disp :: rest))
      (hnew : DisplayNumber.new disp.raw = .error error) :
    GraceStep m i task (m.setGrace i task (.destroying all rest))
  | awaited {all rest : List DisplayNumber} {j : Nat} {call : DestroyCall}
      (hp : task.phase = .awaiting j all rest) (hj : m.destroys[j]? = some call)
      (hdone : call.phase = .done) :
    GraceStep m i task (m.setGrace i task (.destroying all rest))

theorem graceStep_cases {i : Nat} {task : GraceTask} (h : m.graceStep i task = some t) :
    GraceStep m i task t := by
  unfold graceStep at h
  cases hp : task.phase <;> simp only [hp] at h
  case sleeping =>
    split at h
    · obtain rfl := Option.some.inj h
      exact .cancelled hp ‹_›
    · rename_i hflag
      obtain rfl := Option.some.inj h
      exact .fire hp (Bool.eq_false_iff.mpr hflag)
  case checked =>
    obtain rfl := Option.some.inj h
    exact .snapshot hp rfl
  case destroying all rest =>
    cases rest with
    | nil =>
      obtain rfl := Option.some.inj h
      exact .finish hp
    | cons disp rest =>
      simp only at h
      split at h
      · obtain rfl := Option.some.inj h
        exact .destroy hp ‹_›
      · obtain rfl := Option.some.inj h
        exact .skip hp ‹_›
  case awaiting =>
    split at h
    · rename_i hj
      obtain rfl := Option.some.inj h
      exact .awaited hp hj rfl
    · contradiction
  case ended => contradiction

theorem appStep_cases {i : Nat} {app : App} (h : m.appStep i app = some t) :
    (∃ relay, app.phase = .accepted ∧ m.connToRelay.get app.display = some relay ∧
      t = m.setApp i { app with relay := some relay } .attached) ∨
    (∃ error, app.phase = .attached ∧ t = m.setApp i app (.refused error)) ∨
    (app.phase = .attached ∧ (m.connsOf app.display).length < maxX11ConnectionsPerDisplay ∧
      t = m.setApp i app .inserting) ∨
    (app.phase = .inserting ∧ m.connectionsFree = true ∧
      t = { m with
        connections := m.connections.put app.connectionId app.display }.setApp i app .listing) ∨
    (app.phase = .listing ∧
      t = { m with
        displayConns := m.displayConns.put app.display
          ((m.connsOf app.display).insert app.connectionId) }.setApp i app .registered) := by
  unfold appStep at h
  cases hp : app.phase <;> simp only [hp] at h
  case accepted =>
    split at h
    · rename_i relay hrelay
      exact .inl ⟨relay, rfl, hrelay, (Option.some.inj h).symm⟩
    · contradiction
  case attached =>
    split at h
    · exact .inr (.inl ⟨_, rfl, (Option.some.inj h).symm⟩)
    · rename_i hlen
      exact .inr (.inr (.inl ⟨rfl, by omega, (Option.some.inj h).symm⟩))
  case inserting =>
    split at h
    · rename_i hfree
      exact .inr (.inr (.inr (.inl ⟨rfl, hfree, (Option.some.inj h).symm⟩)))
    · contradiction
  case listing => exact .inr (.inr (.inr (.inr ⟨rfl, (Option.some.inj h).symm⟩)))
  all_goals contradiction

theorem appEnd_cases {i : Nat} {app : App} (h : m.appEnd i app = some t) :
    (app.phase = .accepted ∧ t = m.setApp i app .ended) ∨
    (app.phase = .registered ∧
      t = { m with
        unregisters := m.unregisters ++ [UnregisterCall.mk app.connectionId .removing] }.setApp i app
          .ended) := by
  unfold appEnd at h
  cases hp : app.phase <;> simp only [hp] at h
  case accepted => exact .inl ⟨rfl, (Option.some.inj h).symm⟩
  case registered => exact .inr ⟨rfl, (Option.some.inj h).symm⟩
  all_goals contradiction

theorem unregisterStep_cases {i : Nat} {call : UnregisterCall}
    (h : m.unregisterStep i call = some t) :
    (∃ disp, call.phase = .removing ∧ m.connectionsFree = true ∧
      m.connections.get call.connectionId = some disp ∧
      t = { m with
        connections := m.connections.remove call.connectionId }.setUnregister i call
          (.unlisting disp)) ∨
    (call.phase = .removing ∧ m.connections.get call.connectionId = none ∧
      t = m.setUnregister i call .done) ∨
    (∃ disp ids, call.phase = .unlisting disp ∧ m.displayConns.get disp = some ids ∧
      t = { m with
        displayConns := m.displayConns.put disp
          (ids.filter (· ≠ call.connectionId)) }.setUnregister i call .done) ∨
    (∃ disp, call.phase = .unlisting disp ∧ m.displayConns.get disp = none ∧
      t = m.setUnregister i call .done) := by
  unfold unregisterStep at h
  cases hp : call.phase <;> simp only [hp] at h
  case removing =>
    split at h
    · rename_i hfree
      split at h
      · rename_i disp hget
        exact .inl ⟨disp, rfl, hfree, hget, (Option.some.inj h).symm⟩
      · rename_i hget
        exact .inr (.inl ⟨rfl, hget, (Option.some.inj h).symm⟩)
    · contradiction
  case unlisting disp =>
    split at h
    · rename_i ids hids
      exact .inr (.inr (.inl ⟨disp, ids, rfl, hids, (Option.some.inj h).symm⟩))
    · rename_i hids
      exact .inr (.inr (.inr ⟨disp, rfl, hids, (Option.some.inj h).symm⟩))
  case done => contradiction

theorem step_unregister {c : ConnectionId} (h : m.step (.unregister c) = some t) :
    (∃ app ∈ m.apps, app.connectionId = c ∧ app.phase = .ended) ∧
      t = { m with unregisters := m.unregisters ++ [UnregisterCall.mk c .removing] } := by
  simp only [step] at h
  split at h
  · rename_i hany
    obtain ⟨app, hmem, hended⟩ := List.any_eq_true.mp hany
    exact ⟨⟨app, hmem, of_decide_eq_true hended⟩, (Option.some.inj h).symm⟩
  · contradiction

/-! ## What each kind of call leaves alone

Each equation names the fields that a step of the call may change; all others are those of `m`. -/

theorem unbindDisplay_frame (m : Manager) (disp : DisplayNumber) :
    m.unbindDisplay disp = { m with
      ports := (m.unbindDisplay disp).ports
      listeners := (m.unbindDisplay disp).listeners } := by
  unfold unbindDisplay
  split <;> rfl

theorem createStep_frame {i : Nat} {call : CreateCall} {failure : Option String} {id : SessionId}
    (h : m.createStep i call failure id = some t) :
    t = { m with
      sessions := t.sessions
      ports := t.ports
      listeners := t.listeners
      xauth := t.xauth
      connToRelay := t.connToRelay
      issued := t.issued
      creates := t.creates } := by
  cases createStep_cases h
  case unwind | unbindInUse =>
    rw [unbindDisplay_frame m call.display]
    rfl
  all_goals rfl

theorem resumeStep_frame {i : Nat} {call : ResumeCall} (h : m.resumeStep i call = some t) :
    t = { m with
      sessions := t.sessions
      connToRelay := t.connToRelay
      graceTasks := t.graceTasks
      resumes := t.resumes
      graces := t.graces } := by
  cases resumeStep_cases h <;> rfl

theorem destroyStep_frame {i : Nat} {call : DestroyCall} (h : m.destroyStep i call = some t) :
    t = { m with
      sessions := t.sessions
      ports := t.ports
      listeners := t.listeners
      xauth := t.xauth
      connToRelay := t.connToRelay
      connections := t.connections
      displayConns := t.displayConns
      graceTasks := t.graceTasks
      destroys := t.destroys
      graces := t.graces
      expired := t.expired } := by
  cases destroyStep_cases h
  case unbind =>
    rw [unbindDisplay_frame m call.display]
    rfl
  all_goals rfl

theorem release_frame (m : Manager) (client : String) :
    m.release client = { m with
      graceTasks := (m.release client).graceTasks
      graces := (m.release client).graces } := by
  unfold release
  dsimp only
  split <;> rfl

theorem graceStep_frame {i : Nat} {task : GraceTask} (h : m.graceStep i task = some t) :
    t = { m with
      graceTasks := t.graceTasks
      destroys := t.destroys
      graces := t.graces } := by
  cases graceStep_cases h <;> rfl

theorem appStep_frame {i : Nat} {app : App} (h : m.appStep i app = some t) :
    t = { m with
      connections := t.connections
      displayConns := t.displayConns
      apps := t.apps } := by
  rcases appStep_cases h with ⟨relay, -, -, rfl⟩ | ⟨error, -, rfl⟩ | ⟨-, -, rfl⟩ | ⟨-, -, rfl⟩ |
    ⟨-, rfl⟩ <;> rfl

theorem appEnd_frame {i : Nat} {app : App} (h : m.appEnd i app = some t) :
    t = { m with apps := t.apps, unregisters := t.unregisters } := by
  rcases appEnd_cases h with ⟨-, rfl⟩ | ⟨-, rfl⟩ <;> rfl

theorem unregisterStep_frame {i : Nat} {call : UnregisterCall}
    (h : m.unregisterStep i call = some t) :
    t = { m with
      connections := t.connections
      displayConns := t.displayConns
      unregisters := t.unregisters } := by
  rcases unregisterStep_cases h with ⟨disp, -, -, -, rfl⟩ | ⟨-, -, rfl⟩ | ⟨disp, ids, -, -, rfl⟩ |
    ⟨disp, -, -, rfl⟩ <;> rfl

/-- The action is a section of a create call, or makes one. -/
def onCreates : Action → Bool
  | .create .. | .createAuto .. | .createStep .. => true
  | _ => false

def onResumes : Action → Bool
  | .resume .. | .resumeStep .. => true
  | _ => false

def onDestroys : Action → Bool
  | .destroy .. | .destroyStep .. | .graceStep .. => true
  | _ => false

def onGraces : Action → Bool
  | .resumeStep .. | .destroyStep .. | .release .. | .graceStep .. => true
  | _ => false

def onSessions : Action → Bool
  | .createStep .. | .resumeStep .. | .destroyStep .. => true
  | _ => false

def onApps : Action → Bool
  | .accept .. | .appStep .. | .appEnd .. => true
  | _ => false

def onConnections : Action → Bool
  | .destroyStep .. | .appStep .. | .unregisterStep .. => true
  | _ => false

def onUnregisters : Action → Bool
  | .appEnd .. | .unregister .. | .unregisterStep .. => true
  | _ => false

/-- What a step leaves alone, by the kind of its action. -/
structure StepFrame (m t : Manager) (a : Action) : Prop where
  creates : onCreates a = false → t.creates = m.creates
  resumes : onResumes a = false → t.resumes = m.resumes
  destroys : onDestroys a = false → t.destroys = m.destroys
  graces : onGraces a = false → t.graces = m.graces
  sessions : onSessions a = false → t.sessions = m.sessions
  issued : onSessions a = false → t.issued = m.issued
  expired : onSessions a = false → t.expired = m.expired
  apps : onApps a = false → t.apps = m.apps
  connections : onConnections a = false → t.connections = m.connections
  unregisters : onUnregisters a = false → t.unregisters = m.unregisters

theorem step_frame {a : Action} (h : m.step a = some t) : StepFrame m t a := by
  cases a with
  | create | createAuto | resume | destroy | unregisterRelay =>
    obtain rfl := Option.some.inj h
    constructor <;> intro ha <;> first | rfl | contradiction
  | createStep i failure id =>
    obtain ⟨call, -, h⟩ := Option.bind_eq_some_iff.mp h
    rw [createStep_frame h]
    constructor <;> intro ha <;> first | rfl | contradiction
  | resumeStep i =>
    obtain ⟨call, -, h⟩ := Option.bind_eq_some_iff.mp h
    rw [resumeStep_frame h]
    constructor <;> intro ha <;> first | rfl | contradiction
  | destroyStep i =>
    obtain ⟨call, -, h⟩ := Option.bind_eq_some_iff.mp h
    rw [destroyStep_frame h]
    constructor <;> intro ha <;> first | rfl | contradiction
  | release client =>
    obtain rfl := Option.some.inj h
    rw [release_frame]
    constructor <;> intro ha <;> first | rfl | contradiction
  | graceStep i =>
    obtain ⟨task, -, h⟩ := Option.bind_eq_some_iff.mp h
    rw [graceStep_frame h]
    constructor <;> intro ha <;> first | rfl | contradiction
  | accept port c =>
    obtain ⟨handle, -, rfl⟩ := Option.map_eq_some_iff.mp h
    constructor <;> intro ha <;> first | rfl | contradiction
  | appStep i =>
    obtain ⟨app, -, h⟩ := Option.bind_eq_some_iff.mp h
    rw [appStep_frame h]
    constructor <;> intro ha <;> first | rfl | contradiction
  | appEnd i =>
    obtain ⟨app, -, h⟩ := Option.bind_eq_some_iff.mp h
    rw [appEnd_frame h]
    constructor <;> intro ha <;> first | rfl | contradiction
  | unregister c =>
    obtain ⟨-, rfl⟩ := step_unregister h
    constructor <;> intro ha <;> first | rfl | contradiction
  | unregisterStep i =>
    obtain ⟨call, -, h⟩ := Option.bind_eq_some_iff.mp h
    rw [unregisterStep_frame h]
    constructor <;> intro ha <;> first | rfl | contradiction

/-! ## Calls from end to end -/

/-- The `i`-th call of `create_session`, up to the ack. -/
def createCall (i : Nat) (disp : DisplayNumber) (id : SessionId) (client : String) : List Action :=
  .create disp "MIT-MAGIC-COOKIE-1" [UInt8.ofNat i] client ::
    List.replicate 5 (.createStep i none id)

/-- The `i`-th application connects and is registered. -/
def connectCall (i : Nat) (port : DisplayNumber) (c : ConnectionId) : List Action :=
  .accept port c :: List.replicate 4 (.appStep i)

end Manager

end RemoteX11.Sessions
