/-
  The accept loop of the relay, its stop and the count of its clients (`relay/mod.rs`; `destroy_all_sessions`
  of `session/mod.rs`).

  The loop, the handles and the tasks of the clients take turns in any order, over the server of `Waits`:
  the loop calls `destroy_session` for one display of its list after the other and awaits every call. Which
  of the clients is behind which relay of the server is not said here.

  `request_stop` leaves a permit behind, so a stop that is asked for is not lost, and the loop comes to its
  end as long as no application lets its queue run full (`shutdown_completes`). The tasks of the clients
  outlive the loop: `destroy_all_sessions` goes by a list, skips the displays that `DisplayNumber::new`
  refuses, and what a client creates behind the list stays (`active_connections`).
-/
import RemoteX11.Server.Dismantle

namespace RemoteX11.Server.Lifecycle

open RemoteX11.Lib RemoteX11.Protocol RemoteX11.Sessions

/-- `MAX_CONNECTIONS`. -/
def maxConnections : Nat := 256

/-- Where `accept_loop` stands. -/
inductive LoopPhase where
  | accepting
  /-- in `spawn_client`: the connection is counted, and `count` is what it came to -/
  | admitting (count : Nat)
  /-- behind the loop, in `destroy_all_sessions`: the flags of the grace tasks come first -/
  | closing
  /-- the displays are to be listed -/
  | listing
  /-- the displays that are still to be destroyed -/
  | destroying (left : List DisplayNumber)
  /-- a `destroy_session` call is awaited -/
  | awaiting (call : Nat) (left : List DisplayNumber)
  | stopped
  deriving DecidableEq, Repr

structure Relay where
  server : Waits.State
  phase : LoopPhase
  running : Bool
  /-- the permit of `stop` -/
  permit : Bool
  /-- the value of `stopped_tx` -/
  stoppedTx : Bool
  error : Option String
  /-- `active_connections` -/
  active : Nat
  /-- the tasks of the clients that are in `handle_client` -/
  served : List Nat
  accepted : Nat
  /-- the sessions that were there when the displays were listed -/
  listed : List (DisplayNumber × SessionId)
  deriving DecidableEq, Repr

inductive Event where
  /-- `listener.accept()` -/
  | accept
  | acceptError (text : String)
  /-- the rest of `spawn_client` -/
  | spawn
  /-- the loop is notified -/
  | notified
  /-- `destroy_all_sessions` sets the flags of all grace tasks -/
  | drain
  /-- it lists the displays, in whatever order the map has them -/
  | list (displays : List DisplayNumber)
  /-- it comes to the next display -/
  | destroy
  /-- the call that it awaits has returned -/
  | awaited
  /-- what follows it in `accept_loop` -/
  | finish
  /-- a handle: `shutdown` -/
  | shutdown
  /-- `handle_client` returns -/
  | leave (client : Nat)
  /-- a step of the server -/
  | server (a : Waits.Action)
  deriving DecidableEq, Repr

/-- The flags of all grace tasks are taken out and set. -/
def drainGraceTasks (m : Manager) : Manager :=
  { m with
    graceTasks := .empty
    graces := Manager.cancelAll (m.graceTasks.entries.map Prod.snd) m.graces }

namespace Relay

def init (high low sockBuf : Nat) : Relay where
  server := .init high low sockBuf
  phase := .accepting
  running := true
  permit := false
  stoppedTx := false
  error := none
  active := 0
  served := []
  accepted := 0
  listed := []

/-- `request_stop`. -/
def requestStop (s : Relay) : Relay := { s with running := false, permit := s.permit || s.running }

def mgr (s : Relay) : Manager := s.server.base.mgr

def setMgr (s : Relay) (m : Manager) : Relay :=
  { s with server := { s.server with base := { s.server.base with mgr := m } } }

def step (s : Relay) : Event → Option Relay
  | .accept =>
    if s.phase = .accepting then some { s with active := s.active + 1, phase := .admitting (s.active + 1) } else none
  | .acceptError text =>
    if s.phase = .accepting then some { s with error := some s!"accept failed: {text}", phase := .closing } else none
  | .spawn =>
    match s.phase with
    | .admitting count =>
      if maxConnections < count then some { s with active := s.active - 1, phase := .accepting }
      else some { s with served := s.accepted :: s.served, accepted := s.accepted + 1, phase := .accepting }
    | _ => none
  | .notified =>
    if s.phase = .accepting ∧ s.permit then some { s with permit := false, phase := .closing } else none
  | .drain =>
    if s.phase = .closing then some { s.setMgr (drainGraceTasks s.mgr) with phase := .listing } else none
  | .list displays =>
    if s.phase = .listing ∧ displays.Perm (s.mgr.sessions.entries.map Prod.fst) then
      some { s with
        phase := .destroying displays
        listed := s.mgr.sessions.entries.map fun e => (e.1, e.2.id) }
    else none
  | .destroy =>
    match s.phase with
    | .destroying (disp :: left) =>
      match DisplayNumber.new disp.raw with
      | .ok disp =>
        (s.server.step (.base (.mgr (.destroy disp)))).map fun server =>
          { s with server := server, phase := .awaiting s.mgr.destroys.length left }
      | .error _ => some { s with phase := .destroying left }
    | _ => none
  | .awaited =>
    match s.phase with
    | .awaiting call left =>
      if (s.mgr.destroys[call]?).map DestroyCall.phase = some .done then
        some { s with phase := .destroying left }
      else none
    | _ => none
  | .finish =>
    if s.phase = .destroying [] then some { s with running := false, stoppedTx := true, phase := .stopped } else none
  | .shutdown => some s.requestStop
  | .leave client =>
    if client ∈ s.served then some { s with served := s.served.erase client, active := s.active - 1 } else none
  | .server a => (s.server.step a).map fun server => { s with server := server }

/-! ## The loop -/

/-- The connection that is counted and not yet served. -/
def admitting : LoopPhase → Nat
  | .admitting _ => 1
  | _ => 0

/-- What holds of the loop, its handles and the count of the clients. -/
structure LoopInv (s : Relay) : Prop where
  active : s.active = s.served.length + admitting s.phase
  limit : s.served.length ≤ maxConnections
  /-- clients go while a connection is being admitted, but none comes -/
  count : ∀ count, s.phase = .admitting count → s.served.length < count
  /-- a stop that was asked for has left its permit -/
  stop : s.running = false → s.phase = .accepting ∨ (∃ count, s.phase = .admitting count) → s.permit = true
  stopped : s.stoppedTx = true ↔ s.phase = .stopped
  halted : s.phase = .stopped → s.running = false

variable {s t : Relay}

/-- Behind `select!`, and not at the end yet. -/
def behind : LoopPhase → Bool
  | .closing | .listing | .destroying _ | .awaiting .. => true
  | _ => false

/-- The loop is left, or goes on behind it. -/
theorem LoopInv.move (h : s.LoopInv) (hold : s.phase = .accepting ∨ behind s.phase = true)
    (hnew : behind t.phase = true) (hactive : t.active = s.active) (hserved : t.served = s.served)
    (hstopped : t.stoppedTx = s.stoppedTx) : t.LoopInv := by
  have hnone : ∀ phase, phase = .accepting ∨ behind phase = true →
      admitting phase = 0 ∧ phase ≠ .stopped := by
    rintro phase (rfl | hphase)
    · exact ⟨rfl, nofun⟩
    · cases phase <;> first | contradiction | exact ⟨rfl, nofun⟩
  obtain ⟨hadmitting, hne⟩ := hnone _ hold
  obtain ⟨hadmitting', hne'⟩ := hnone _ (.inr hnew)
  have hfront : t.phase ≠ .accepting ∧ ∀ count, t.phase ≠ .admitting count := by
    constructor
    · intro hp
      simp [hp, behind] at hnew
    · intro count hp
      simp [hp, behind] at hnew
  refine ⟨?_, hserved ▸ h.limit, fun count hcount => absurd hcount (hfront.2 count), ?_, ?_,
    fun hp => absurd hp hne'⟩
  · rw [hactive, hserved, hadmitting', h.active, hadmitting]
  · rintro - (hp | ⟨count, hp⟩)
    · exact absurd hp hfront.1
    · exact absurd hp (hfront.2 count)
  · rw [hstopped, h.stopped]
    exact iff_of_false hne hne'

theorem LoopInv.accept (h : s.LoopInv) (hphase : s.phase = .accepting) :
    LoopInv { s with active := s.active + 1, phase := .admitting (s.active + 1) } := by
  have hactive : s.active = s.served.length := by simpa [hphase, admitting] using h.active
  refine ⟨?_, h.limit, ?_, fun hrunning _ => h.stop hrunning (.inl hphase), ?_, nofun⟩
  · simp [admitting, hactive]
  · intro count hcount
    obtain rfl := LoopPhase.admitting.inj hcount
    show s.served.length < s.active + 1
    omega
  · simpa [hphase] using h.stopped

theorem LoopInv.spawn (h : s.LoopInv) (hstep : s.step .spawn = some t) : t.LoopInv := by
  simp only [step] at hstep
  split at hstep
  · rename_i count hphase
    have hactive : s.active = s.served.length + 1 := by simpa [hphase, admitting] using h.active
    have hcount := h.count count hphase
    have hstop := fun hrunning => h.stop hrunning (.inr ⟨count, hphase⟩)
    split at hstep
    · obtain rfl := Option.some.inj hstep
      refine ⟨?_, h.limit, nofun, fun hrunning _ => hstop hrunning, ?_, nofun⟩
      · simp [admitting, hactive]
      · simpa [hphase] using h.stopped
    · obtain rfl := Option.some.inj hstep
      refine ⟨?_, ?_, nofun, fun hrunning _ => hstop hrunning, ?_, nofun⟩
      · simp [admitting, hactive]
      · simp only [List.length_cons]
        omega
      · simpa [hphase] using h.stopped
  · contradiction

theorem LoopInv.finish (h : s.LoopInv) (hphase : s.phase = .destroying []) :
    LoopInv { s with running := false, stoppedTx := true, phase := .stopped } := by
  have hactive : s.active = s.served.length := by simpa [hphase, admitting] using h.active
  exact ⟨hactive, h.limit, nofun, fun _ hp => by rcases hp with hp | ⟨_, hp⟩ <;> contradiction,
    by simp, fun _ => rfl⟩

theorem LoopInv.shutdown (h : s.LoopInv) : s.requestStop.LoopInv where
  active := h.active
  limit := h.limit
  count := h.count
  stop _ hphase := by
    show (s.permit || s.running) = true
    cases hrunning : s.running with
    | true => exact Bool.or_true _
    | false => rw [h.stop hrunning hphase, Bool.true_or]
  stopped := h.stopped
  halted _ := rfl

theorem LoopInv.leave (h : s.LoopInv) {client : Nat} (hmem : client ∈ s.served) :
    LoopInv { s with served := s.served.erase client, active := s.active - 1 } := by
  have hlen : (s.served.erase client).length = s.served.length - 1 := List.length_erase_of_mem hmem
  have hpos : 0 < s.served.length := List.length_pos_of_mem hmem
  have hactive := h.active
  have hlimit := h.limit
  refine ⟨?_, ?_, fun count hphase => ?_, h.stop, h.stopped, h.halted⟩
  · simp only [hlen]
    omega
  · simp only [hlen]
    omega
  · have := h.count count hphase
    simp only [hlen]
    omega

theorem step_loopInv (h : s.LoopInv) {e : Event} (hstep : s.step e = some t) : t.LoopInv := by
  cases e with
  | accept =>
    rw [step, Option.ite_none_right_eq_some] at hstep
    exact Option.some.inj hstep.2 ▸ h.accept hstep.1
  | acceptError text =>
    rw [step, Option.ite_none_right_eq_some] at hstep
    obtain ⟨hphase, hstep⟩ := hstep
    obtain rfl := Option.some.inj hstep
    exact h.move (.inl hphase) rfl rfl rfl rfl
  | spawn => exact h.spawn hstep
  | notified =>
    rw [step, Option.ite_none_right_eq_some] at hstep
    obtain ⟨⟨hphase, -⟩, hstep⟩ := hstep
    obtain rfl := Option.some.inj hstep
    exact h.move (.inl hphase) rfl rfl rfl rfl
  | drain =>
    rw [step, Option.ite_none_right_eq_some] at hstep
    obtain ⟨hphase, hstep⟩ := hstep
    obtain rfl := Option.some.inj hstep
    exact h.move (.inr (by rw [hphase]; rfl)) rfl rfl rfl rfl
  | list displays =>
    rw [step, Option.ite_none_right_eq_some] at hstep
    obtain ⟨⟨hphase, -⟩, hstep⟩ := hstep
    obtain rfl := Option.some.inj hstep
    exact h.move (.inr (by rw [hphase]; rfl)) rfl rfl rfl rfl
  | destroy =>
    simp only [step] at hstep
    split at hstep
    · rename_i disp left hphase
      split at hstep
      · obtain ⟨server, -, rfl⟩ := Option.map_eq_some_iff.mp hstep
        exact h.move (.inr (by rw [hphase]; rfl)) rfl rfl rfl rfl
      · obtain rfl := Option.some.inj hstep
        exact h.move (.inr (by rw [hphase]; rfl)) rfl rfl rfl rfl
    · contradiction
  | awaited =>
    simp only [step] at hstep
    split at hstep
    · rename_i call left hphase
      split at hstep
      · obtain rfl := Option.some.inj hstep
        exact h.move (.inr (by rw [hphase]; rfl)) rfl rfl rfl rfl
      · contradiction
    · contradiction
  | finish =>
    rw [step, Option.ite_none_right_eq_some] at hstep
    exact Option.some.inj hstep.2 ▸ h.finish hstep.1
  | shutdown => exact Option.some.inj hstep ▸ h.shutdown
  | leave client =>
    rw [step, Option.ite_none_right_eq_some] at hstep
    exact Option.some.inj hstep.2 ▸ h.leave hstep.1
  | server a =>
    obtain ⟨server, -, rfl⟩ := Option.map_eq_some_iff.mp hstep
    exact ⟨h.active, h.limit, h.count, h.stop, h.stopped, h.halted⟩

theorem init_loopInv (high low sockBuf : Nat) : (init high low sockBuf).LoopInv := by
  constructor <;> simp [init, admitting]

/-! ## The sessions -/

/-- The loop is still to come to the session of a display: it is left of the list, or the call that is
    awaited has yet to remove it. -/
def covers (s : Relay) (disp : DisplayNumber) : Prop :=
  match s.phase with
  | .destroying left => disp ∈ left
  | .awaiting j left => disp ∈ left ∨
    ∃ call, s.mgr.destroys[j]? = some call ∧ call.display = disp ∧ call.phase ≠ .done
  | _ => False

/-- What holds of the sessions that were listed. -/
structure ListInv (s : Relay) : Prop where
  ids : Manager.IdsInv s.mgr
  issued : ∀ x ∈ s.listed, x.2 ∈ s.mgr.issued
  /-- a session of the list that is not gone is one to come, if its display is not refused -/
  listed : ∀ x ∈ s.listed, x.1.raw.toNat ≤ maxDisplayNumber → s.mgr.Gone x ∨ s.covers x.1
  awaits : ∀ j left, s.phase = .awaiting j left → j < s.mgr.destroys.length

/-- A `destroy_session` call goes on, or has just removed the session of its display. -/
theorem call_step {m m' : Manager} {c : Sessions.Action} {j : Nat} {call : DestroyCall}
    (hj : m.destroys[j]? = some call) (hphase : call.phase ≠ .done) (h : m.step c = some m') :
    (∃ call', m'.destroys[j]? = some call' ∧ call'.display = call.display ∧ call'.phase ≠ .done) ∨
      m'.sessions.get call.display = none := by
  by_cases hc : c = .destroyStep j
  · subst hc
    obtain ⟨call', hj', hstep⟩ := Option.bind_eq_some_iff.mp h
    obtain rfl := Option.some.inj (hj.symm.trans hj')
    obtain ⟨hlt, -⟩ := List.getElem?_eq_some_iff.mp hj
    obtain ⟨phase, hdestroys, -, hlast⟩ := Manager.destroyStep_destroys hstep
    by_cases hdone : phase = .done
    · right
      rw [hlast hdone, Table.get_remove_self]
    · exact .inl ⟨{ call with phase := phase }, by rw [hdestroys, List.getElem?_set_self hlt], rfl, hdone⟩
  · exact .inl ⟨call, Waits.State.destroys_step h hj hc, rfl, hphase⟩

/-- A step of the server. -/
theorem ListInv.server (h : s.ListInv) {a : Waits.Action} {server : Waits.State}
    (hstep : s.server.step a = some server) : ListInv { s with server := server } := by
  rcases Waits.State.step_manager hstep with hsame | ⟨c, hc⟩
  · have hsame : server.base.mgr = s.mgr := hsame
    refine ⟨?_, ?_, ?_, ?_⟩ <;> simp only [mgr, covers, hsame]
    exacts [h.ids, h.issued, h.listed, h.awaits]
  have hc : s.mgr.step c = some server.base.mgr := hc
  refine ⟨Manager.step_idsInv h.ids hc, fun x hx => Manager.step_issued hc (h.issued x hx), ?_, ?_⟩
  · intro x hx hdisp
    rcases h.listed x hx hdisp with hgone | hcovers
    · exact .inl (hgone.step h.ids (h.issued x hx) hc)
    unfold covers at hcovers ⊢
    dsimp only
    split at hcovers
    · exact .inr hcovers
    · rcases hcovers with hleft | ⟨call, hj, hd, hphase⟩
      · exact .inr (.inl hleft)
      · rcases call_step hj hphase hc with ⟨call', hj', hd', hphase'⟩ | hnone
        · exact .inr (.inr ⟨call', hj', hd'.trans hd, hphase'⟩)
        · refine .inl fun session hs => ?_
          rw [hd] at hnone
          exact absurd (hnone.symm.trans hs) nofun
    · exact hcovers.elim
  · intro j left hphase
    exact (h.awaits j left hphase).trans_le (Manager.step_destroys_length hc)

/-- The loop goes on before the displays are listed. -/
theorem ListInv.before (h : s.ListInv) (hcovers : ∀ disp, ¬ s.covers disp) (hmgr : t.mgr = s.mgr)
    (hlisted : t.listed = s.listed) (hphase : ∀ j left, t.phase ≠ .awaiting j left) : t.ListInv := by
  refine ⟨hmgr ▸ h.ids, ?_, ?_, fun j left hp => absurd hp (hphase j left)⟩
  · rw [hmgr, hlisted]
    exact h.issued
  · intro x hx hdisp
    rw [hlisted] at hx
    exact .inl (hmgr ▸ (h.listed x hx hdisp).resolve_right (hcovers x.1))

theorem not_covers (hphase : ∀ left, s.phase ≠ .destroying left)
    (hphase' : ∀ j left, s.phase ≠ .awaiting j left) (disp : DisplayNumber) : ¬ s.covers disp := by
  unfold covers
  split
  · exact fun _ => absurd ‹_› (hphase _)
  · exact fun _ => absurd ‹_› (hphase' _ _)
  · exact id

/-- The flags of the grace tasks are set; the sessions and the calls are as before. -/
theorem ListInv.drain (h : s.ListInv) (hphase : s.phase = .closing) :
    ListInv { s.setMgr (drainGraceTasks s.mgr) with phase := .listing } := by
  refine ⟨⟨h.ids.keys, h.ids.issued, h.ids.unique⟩, h.issued, ?_, nofun⟩
  intro x hx hdisp
  exact .inl ((h.listed x hx hdisp).resolve_right (not_covers (by simp [hphase]) (by simp [hphase]) x.1))

theorem ListInv.list (h : s.ListInv) {displays : List DisplayNumber}
    (hperm : displays.Perm (s.mgr.sessions.entries.map Prod.fst)) : ListInv { s with
    phase := .destroying displays
    listed := s.mgr.sessions.entries.map fun e => (e.1, e.2.id) } := by
  refine ⟨h.ids, ?_, ?_, nofun⟩
  · intro x hx
    obtain ⟨⟨disp, session⟩, hmem, rfl⟩ := List.mem_map.mp hx
    exact h.ids.issued disp session (Table.mem_entries.mp hmem)
  · intro x hx _
    obtain ⟨e, hmem, rfl⟩ := List.mem_map.mp hx
    exact .inr (hperm.mem_iff.mpr (List.mem_map_of_mem hmem))

/-- The loop calls `destroy_session` for the next display. -/
theorem ListInv.destroy (h : s.ListInv) {disp disp' : DisplayNumber} {left : List DisplayNumber}
    (hphase : s.phase = .destroying (disp :: left)) (hnew : DisplayNumber.new disp.raw = .ok disp')
    {server : Waits.State} (hstep : s.server.step (.base (.mgr (.destroy disp'))) = some server) :
    ListInv { s with server := server, phase := .awaiting s.mgr.destroys.length left } := by
  have hserver := h.server hstep
  have hdestroys : server.base.mgr.destroys = s.mgr.destroys ++ [⟨disp', none, .cancelGrace⟩] := by
    simp only [Waits.State.step, Waits.State.baseStep] at hstep
    split at hstep
    · obtain ⟨base, hbase, rfl⟩ := Option.map_eq_some_iff.mp hstep
      obtain ⟨-, m, hm, rfl⟩ := Relays.State.step_mgrAction hbase
      exact Option.some.inj hm ▸ rfl
    · contradiction
  refine ⟨hserver.ids, hserver.issued, ?_, ?_⟩
  · intro x hx hdisp
    rcases hserver.listed x hx hdisp with hgone | hcovers
    · exact .inl hgone
    have hmem : x.1 ∈ disp :: left := by
      simpa [covers, hphase] using hcovers
    rcases List.mem_cons.mp hmem with hd | hleft
    · refine .inr (.inr ⟨⟨disp', none, .cancelGrace⟩, ?_, ?_, fun hdone => by cases hdone⟩)
      · show server.base.mgr.destroys[_]? = _
        rw [hdestroys, List.getElem?_concat_length]
      · exact (DisplayNumber.eq_of_new_raw hnew).trans hd.symm
    · exact .inr (.inl hleft)
  · intro j left' hp
    obtain ⟨rfl, rfl⟩ := LoopPhase.awaiting.inj hp
    show _ < server.base.mgr.destroys.length
    rw [hdestroys, List.length_append]
    exact Nat.lt_succ_self _

/-- A display that `DisplayNumber::new` refuses is skipped. -/
theorem ListInv.skip (h : s.ListInv) {disp : DisplayNumber} {left : List DisplayNumber} {e : Rx11Error}
    (hphase : s.phase = .destroying (disp :: left)) (hnew : DisplayNumber.new disp.raw = .error e) :
    ListInv { s with phase := .destroying left } := by
  refine ⟨h.ids, h.issued, ?_, nofun⟩
  intro x hx hdisp
  refine (h.listed x hx hdisp).imp_right fun hcovers => ?_
  have hmem : x.1 ∈ disp :: left := by simpa [covers, hphase] using hcovers
  rcases List.mem_cons.mp hmem with hd | hleft
  · -- a valid display is not skipped
    rw [← hd, Manager.displayNumber_new_of_le hdisp] at hnew
    contradiction
  · exact hleft

/-- The call that was awaited has returned. -/
theorem ListInv.awaited (h : s.ListInv) {j : Nat} {left : List DisplayNumber}
    (hphase : s.phase = .awaiting j left)
    (hdone : (s.mgr.destroys[j]?).map DestroyCall.phase = some .done) :
    ListInv { s with phase := .destroying left } := by
  refine ⟨h.ids, h.issued, ?_, nofun⟩
  intro x hx hdisp
  refine (h.listed x hx hdisp).imp_right fun hcovers => ?_
  simp only [covers, hphase] at hcovers
  rcases hcovers with hleft | ⟨call, hj, -, hlive⟩
  · exact hleft
  · rw [hj] at hdone
    exact absurd (Option.some.inj hdone) hlive

theorem step_listInv (h : s.ListInv) {e : Event} (hstep : s.step e = some t) : t.ListInv := by
  cases e with
  | accept | acceptError text | notified =>
    rw [step, Option.ite_none_right_eq_some] at hstep
    obtain ⟨hphase, hstep⟩ := hstep
    obtain rfl := Option.some.inj hstep
    exact h.before (not_covers (by simp [hphase]) (by simp [hphase])) rfl rfl nofun
  | spawn =>
    simp only [step] at hstep
    split at hstep
    · rename_i count hphase
      have hcovers := not_covers (s := s) (by simp [hphase]) (by simp [hphase])
      split at hstep <;> obtain rfl := Option.some.inj hstep <;>
        exact h.before hcovers rfl rfl nofun
    · contradiction
  | drain =>
    rw [step, Option.ite_none_right_eq_some] at hstep
    exact Option.some.inj hstep.2 ▸ h.drain hstep.1
  | list displays =>
    rw [step, Option.ite_none_right_eq_some] at hstep
    exact Option.some.inj hstep.2 ▸ h.list hstep.1.2
  | destroy =>
    simp only [step] at hstep
    split at hstep
    · rename_i disp left hphase
      split at hstep
      · rename_i disp' hnew
        obtain ⟨server, hserver, rfl⟩ := Option.map_eq_some_iff.mp hstep
        exact h.destroy hphase hnew hserver
      · rename_i hnew
        obtain rfl := Option.some.inj hstep
        exact h.skip hphase hnew
    · contradiction
  | awaited =>
    simp only [step] at hstep
    split at hstep
    · rename_i j left hphase
      split at hstep
      · rename_i hdone
        obtain rfl := Option.some.inj hstep
        exact h.awaited hphase hdone
      · contradiction
    · contradiction
  | finish =>
    rw [step, Option.ite_none_right_eq_some] at hstep
    obtain ⟨hphase, hstep⟩ := hstep
    obtain rfl := Option.some.inj hstep
    exact h.before (by simp [covers, hphase]) rfl rfl nofun
  | shutdown =>
    obtain rfl := Option.some.inj hstep
    exact ⟨h.ids, h.issued, h.listed, h.awaits⟩
  | leave client =>
    rw [step, Option.ite_none_right_eq_some] at hstep
    obtain ⟨-, hstep⟩ := hstep
    obtain rfl := Option.some.inj hstep
    exact ⟨h.ids, h.issued, h.listed, h.awaits⟩
  | server a =>
    obtain ⟨server, hserver, rfl⟩ := Option.map_eq_some_iff.mp hstep
    exact h.server hserver

theorem init_listInv (high low sockBuf : Nat) : (init high low sockBuf).ListInv where
  ids := Manager.init_idsInv
  issued _ hx := absurd hx List.not_mem_nil
  listed _ hx := absurd hx List.not_mem_nil
  awaits _ _ h := nomatch h

/-- **The count of the clients, and what a stop leaves**: after every run the count is the number of
    clients that are served, but for a connection that is being admitted, and no more than the limit are.
    The relay is stopped when its loop is, and of the sessions that are left then, those that were there
    when the displays were listed are on displays that `DisplayNumber::new` refuses. -/
theorem active_connections {high low sockBuf : Nat} {events : List Event}
    (hrun : run step (init high low sockBuf) events = some s) :
    s.active = s.served.length + admitting s.phase ∧ s.served.length ≤ maxConnections ∧
      (s.stoppedTx = true ↔ s.phase = .stopped) ∧
      (s.stoppedTx = true → s.running = false ∧ ∀ disp session, s.mgr.sessions.get disp = some session →
        (disp, session.id) ∈ s.listed → maxDisplayNumber < disp.raw.toNat) := by
  have h : s.LoopInv := run_inv_all (fun _ _ _ h hstep => step_loopInv h hstep)
    (init_loopInv high low sockBuf) hrun
  have hlist : s.ListInv := run_inv_all (fun _ _ _ h hstep => step_listInv h hstep)
    (init_listInv high low sockBuf) hrun
  refine ⟨h.active, h.limit, h.stopped, fun hstopped => ?_⟩
  have hphase := h.stopped.mp hstopped
  refine ⟨h.halted hphase, fun disp session hsession hmem => ?_⟩
  by_contra hle
  rcases hlist.listed _ hmem (Nat.not_lt.mp hle) with hgone | hcovers
  · exact hgone session hsession rfl
  · simp [covers, hphase] at hcovers

/-- The client of the relay `r` creates the `i`-th session. -/
def creates (r i : Nat) (disp : DisplayNumber) (id : SessionId) : List Event :=
  .server (.frame r (.sessionCreate disp "MIT-MAGIC-COOKIE-1" [UInt8.ofNat i])) ::
    List.replicate 5 (.server (.base (.mgr (.createStep i none id)))) ++
    List.replicate 3 (.server (.base (.relayStep r)))

/-- A client has sessions on `:10` and on a display number that is too large, and creates a third one while
    the loop is stopping. -/
def keptSessions : List Event :=
  .accept :: .spawn :: .server (.base (.connect "alice" true)) :: creates 0 0 ⟨10⟩ ⟨"a"⟩ ++
    creates 0 1 ⟨300⟩ ⟨"b"⟩ ++ [.shutdown, .notified, .drain, .list [⟨10⟩, ⟨300⟩], .destroy] ++
    creates 0 2 ⟨11⟩ ⟨"c"⟩ ++ List.replicate 6 (.server (.base (.mgr (.destroyStep 0)))) ++
    [.awaited, .destroy, .finish]

theorem active_connections_kept : ∃ s, run step (init 2097152 262144 212992) keptSessions = some s ∧
    s.stoppedTx = true ∧ s.served = [0] ∧ s.active = 1 ∧
    (s.mgr.sessions.entries.map fun e => (e.1, e.2.id)) = [(⟨11⟩, ⟨"c"⟩), (⟨300⟩, ⟨"b"⟩)] := by
  have hlast : ∃ s ∈ run step (init 2097152 262144 212992) keptSessions, s.stoppedTx = true ∧
      s.served = [0] ∧ s.phase = .stopped ∧
      (s.mgr.sessions.entries.map fun e => (e.1, e.2.id)) = [(⟨11⟩, ⟨"c"⟩), (⟨300⟩, ⟨"b"⟩)] := by
    decide +kernel
  obtain ⟨s, hs, hstopped, hserved, hphase, hsessions⟩ := hlast
  have hactive : s.active = s.served.length + admitting s.phase := (active_connections hs).1
  refine ⟨s, hs, hstopped, hserved, ?_, hsessions⟩
  rw [hactive, hserved, hphase]
  rfl

/-! ## A stop -/

/-- A step of the loop, or of the `destroy_session` calls that it waits for. -/
def Own : Event → Prop
  | .spawn | .notified | .drain | .list _ | .destroy | .awaited | .finish => True
  | .server a => Waits.Dismantles a
  | _ => False

/-- No payload takes the last place in the queue of an application. -/
def NoneStalls (s : Relay) : Event → Prop
  | .server a => s.server.LeavesRoom a
  | _ => True

instance (s : Relay) (e : Event) : Decidable (s.NoneStalls e) :=
  match e with
  | .server a => inferInstanceAs (Decidable (s.server.LeavesRoom a))
  | .accept | .acceptError _ | .spawn | .notified | .drain | .list _ | .destroy | .awaited | .finish
  | .shutdown | .leave _ => isTrue trivial

/-- What holds of a relay whose applications all read. -/
structure Ready (s : Relay) : Prop where
  loop : s.LoopInv
  list : s.ListInv
  roomy : Waits.State.Roomy s.server

/-- Flags of grace tasks keep nobody from closing a connection. -/
theorem roomy_drain (h : Waits.State.Roomy s.server) :
    Waits.State.Roomy (s.setMgr (drainGraceTasks s.mgr)).server :=
  h.base (fun _ _ hid => hid) rfl h.holder

theorem step_roomy (h : Waits.State.Roomy s.server) {e : Event} (hroom : s.NoneStalls e)
    (hstep : s.step e = some t) : Waits.State.Roomy t.server := by
  cases e with
  | accept | acceptError text | notified | list displays | finish | leave client =>
    rw [step, Option.ite_none_right_eq_some] at hstep
    exact Option.some.inj hstep.2 ▸ h
  | spawn =>
    simp only [step] at hstep
    split at hstep
    · split at hstep <;> exact Option.some.inj hstep ▸ h
    · contradiction
  | drain =>
    rw [step, Option.ite_none_right_eq_some] at hstep
    exact Option.some.inj hstep.2 ▸ roomy_drain h
  | destroy =>
    simp only [step] at hstep
    split at hstep
    · split at hstep
      · obtain ⟨server, hserver, rfl⟩ := Option.map_eq_some_iff.mp hstep
        exact Waits.State.step_roomy (a := .base (.mgr (.destroy _))) h trivial hserver
      · exact Option.some.inj hstep ▸ h
    · contradiction
  | awaited =>
    simp only [step] at hstep
    split at hstep
    · split at hstep
      · exact Option.some.inj hstep ▸ h
      · contradiction
    · contradiction
  | shutdown => exact Option.some.inj hstep ▸ h
  | server a =>
    obtain ⟨server, hserver, rfl⟩ := Option.map_eq_some_iff.mp hstep
    exact Waits.State.step_roomy h hroom hserver

theorem step_ready (h : s.Ready) {e : Event} (hroom : s.NoneStalls e) (hstep : s.step e = some t) :
    t.Ready where
  loop := step_loopInv h.loop hstep
  list := step_listInv h.list hstep
  roomy := step_roomy h.roomy hroom hstep

/-- How far the loop is from its end, once a stop was asked for. -/
def distance (s : Relay) : Nat :=
  match s.phase with
  | .admitting _ => 2 * s.mgr.sessions.entries.length + 6
  | .accepting => 2 * s.mgr.sessions.entries.length + 5
  | .closing => 2 * s.mgr.sessions.entries.length + 4
  | .listing => 2 * s.mgr.sessions.entries.length + 3
  | .awaiting _ left => 2 * left.length + 2
  | .destroying left => 2 * left.length + 1
  | .stopped => 0

/-- The loop, and the calls that it waits for, send no payload. -/
theorem noneStalls_of_own {e : Event} (h : Own e) : s.NoneStalls e := by
  cases e with
  | server a =>
    cases a with
    | deliver r => exact h.elim
    | _ => trivial
  | _ => trivial

/-- The steps of the server are steps of the relay. -/
theorem run_server {as : List Waits.Action} {server : Waits.State}
    (h : run Waits.State.step s.server as = some server) :
    run step s (as.map .server) = some { s with server := server } := by
  induction as generalizing s with
  | nil =>
    obtain rfl := Option.some.inj h
    rfl
  | cons a as ih =>
    obtain ⟨u, hu, hrest⟩ := run_cons_eq_some.mp h
    refine run_cons_eq_some.mpr ⟨{ s with server := u }, ?_, ih (s := { s with server := u }) hrest⟩
    simp only [step, hu, Option.map_some]

/-- Steps of the loop and of the calls that it waits for bring it closer to its end. -/
def Nearer (s : Relay) : Prop :=
  ∃ es t, (∀ e ∈ es, Own e) ∧ run step s es = some t ∧ (t.Ready ∧ t.running = false) ∧ t.distance < s.distance

/-- A step of the loop itself. -/
theorem nearer_of_step (h : s.Ready) {e : Event} (hstep : s.step e = some t) (hown : Own e)
    (hrunning : t.running = false) (hlt : t.distance < s.distance) : s.Nearer := by
  refine ⟨[e], t, fun e' he' => ?_, run_cons_eq_some.mpr ⟨t, hstep, rfl⟩,
    ⟨step_ready h (noneStalls_of_own hown) hstep, hrunning⟩, hlt⟩
  exact List.mem_singleton.mp he' ▸ hown

/-- The loop calls `destroy_session` for the next display of the list, or skips it. -/
theorem nearer_of_destroying (h : s.Ready) (hrunning : s.running = false) {disp : DisplayNumber}
    {left : List DisplayNumber} (hp : s.phase = .destroying (disp :: left)) : s.Nearer := by
  cases hnew : DisplayNumber.new disp.raw with
  | ok disp' =>
    obtain ⟨server, hserver, -⟩ := Waits.State.managerStep (s := s.server) (c := .destroy disp') rfl rfl
      (m := { s.mgr with destroys := s.mgr.destroys ++ [⟨disp', none, .cancelGrace⟩] }) rfl
    have hstep : s.step .destroy = some { s with
        server := server, phase := .awaiting s.mgr.destroys.length left } := by
      simp only [step, hp, hnew, hserver, Option.map_some]
    exact nearer_of_step h hstep trivial hrunning (by simp [distance, hp, Nat.mul_add])
  | error e =>
    have hstep : s.step .destroy = some { s with phase := .destroying left } := by
      simp only [step, hp, hnew]
    exact nearer_of_step h hstep trivial hrunning (by simp [distance, hp])

/-- The call that is awaited returns, and the loop goes on with the rest of the list. -/
theorem nearer_of_awaiting (h : s.Ready) (hrunning : s.running = false) {j : Nat} {left : List DisplayNumber}
    (hp : s.phase = .awaiting j left) : s.Nearer := by
  have hj := List.getElem?_eq_getElem (h.list.awaits j left hp)
  obtain ⟨as, server, call, has, hserver, -, -, hj', hdone⟩ :=
    Waits.State.call_returns (I := fun _ => True) (fun _ _ _ _ _ => trivial) (fun _ _ _ _ _ => trivial)
      h.roomy trivial hj
  have hown : ∀ e ∈ as.map Event.server, Own e := by
    intro e he
    obtain ⟨a, ha, rfl⟩ := List.mem_map.mp he
    exact has a ha
  have hready : Ready { s with server := server } := by
    have hmeets : Meets step NoneStalls s (as.map .server) :=
      meets_of_forall (fun _ e he => noneStalls_of_own (hown e he)) s
    exact run_inv (fun _ _ _ h hroom hstep => step_ready h hroom hstep) h hmeets (run_server hserver)
  have hstep : step { s with server := server } .awaited = some { s with
      server := server, phase := .destroying left } := by
    have hmap : (server.base.mgr.destroys[j]?).map DestroyCall.phase = some .done := by
      rw [hj', Option.map_some, hdone]
    simp [step, hp, mgr, hmap]
  refine ⟨as.map .server ++ [.awaited], _, fun e he => ?_,
    run_append.mpr ⟨_, run_server hserver, run_cons_eq_some.mpr ⟨_, hstep, rfl⟩⟩,
    ⟨step_ready (e := .awaited) hready trivial hstep, hrunning⟩, by simp [distance, hp]⟩
  rcases List.mem_append.mp he with he | he
  · exact hown e he
  · exact List.mem_singleton.mp he ▸ trivial

/-- The loop comes closer to its end: by its own step, or when the call that it awaits has returned. -/
theorem loop_progress (h : s.Ready) (hrunning : s.running = false) (hphase : s.phase ≠ .stopped) : s.Nearer := by
  cases hp : s.phase with
  | accepting =>
    have hpermit := h.loop.stop hrunning (.inl hp)
    have hstep : s.step .notified = some { s with permit := false, phase := .closing } := by
      simp [step, hp, hpermit]
    exact nearer_of_step h hstep trivial hrunning (by simp [distance, hp, mgr])
  | admitting count =>
    by_cases hfull : maxConnections < count
    · have hstep : s.step .spawn = some { s with active := s.active - 1, phase := .accepting } := by
        simp [step, hp, hfull]
      exact nearer_of_step h hstep trivial hrunning (by simp [distance, hp, mgr])
    · have hstep : s.step .spawn = some { s with
          served := s.accepted :: s.served, accepted := s.accepted + 1, phase := .accepting } := by
        simp [step, hp, hfull]
      exact nearer_of_step h hstep trivial hrunning (by simp [distance, hp, mgr])
  | closing =>
    have hstep : s.step .drain = some { s.setMgr (drainGraceTasks s.mgr) with phase := .listing } := by
      simp [step, hp]
    exact nearer_of_step h hstep trivial hrunning (by simp [distance, hp, mgr, setMgr, drainGraceTasks])
  | listing =>
    have hstep : s.step (.list (s.mgr.sessions.entries.map Prod.fst)) = some { s with
        phase := .destroying (s.mgr.sessions.entries.map Prod.fst)
        listed := s.mgr.sessions.entries.map fun e => (e.1, e.2.id) } := by
      simp [step, hp, List.Perm.refl]
    exact nearer_of_step h hstep trivial hrunning (by simp [distance, hp])
  | destroying left =>
    cases left with
    | nil =>
      have hstep : s.step .finish = some { s with
          running := false, stoppedTx := true, phase := .stopped } := by
        simp [step, hp]
      exact nearer_of_step h hstep trivial rfl (by simp [distance, hp])
    | cons disp left => exact nearer_of_destroying h hrunning hp
  | awaiting j left => exact nearer_of_awaiting h hrunning hp
  | stopped => exact absurd hp hphase

/-- **A shutdown completes**: once it has been asked for, and in a run in which no payload takes the last
    place in the queue of an application, the steps of the loop and of the calls that it waits for lead to
    its end. -/
theorem shutdown_completes {high low sockBuf : Nat} {events : List Event}
    (hmeets : Meets step NoneStalls (init high low sockBuf) events)
    (hrun : run step (init high low sockBuf) events = some s) (hrunning : s.running = false) :
    ∃ own t, (∀ e ∈ own, Own e) ∧ run step s own = some t ∧ t.stoppedTx = true := by
  have hinit : (init high low sockBuf).Ready :=
    ⟨init_loopInv high low sockBuf, init_listInv high low sockBuf, Waits.State.init_roomy high low sockBuf⟩
  have hready : s.Ready := run_inv (fun _ _ _ h hroom hstep => step_ready h hroom hstep) hinit hmeets hrun
  have hprogress : ∀ u : Relay, u.Ready ∧ u.running = false → u.phase = .stopped ∨ u.Nearer := by
    intro u hu
    by_cases hp : u.phase = .stopped
    · exact .inl hp
    · exact .inr (loop_progress hu.1 hu.2 hp)
  obtain ⟨own, t, hown, hto, ⟨h, -⟩, hdone⟩ := runs_reach distance hprogress ⟨hready, hrunning⟩
  exact ⟨own, t, hown, hto, h.loop.stopped.mpr hdone⟩

/-- A stop is asked for while a connection is being admitted, and a client has a session. -/
def stopping : List Event :=
  .accept :: .spawn :: .server (.base (.connect "alice" true)) :: creates 0 0 ⟨10⟩ ⟨"a"⟩ ++ [.accept, .shutdown]

theorem shutdown_completes_accepted :
    ∃ s own t, run step (init 2097152 262144 212992) stopping = some s ∧ s.phase = .admitting 2 ∧
      s.mgr.sessions.entries.length = 1 ∧ (∀ e ∈ own, Own e) ∧ run step s own = some t ∧
      t.stoppedTx = true := by
  have hlast : ∃ s ∈ run step (init 2097152 262144 212992) stopping, s.phase = .admitting 2 ∧
      s.mgr.sessions.entries.length = 1 ∧ s.running = false := by decide +kernel
  obtain ⟨s, hs, hphase, hsessions, hrunning⟩ := hlast
  have hmeets : Meets step NoneStalls (init 2097152 262144 212992) stopping := by decide +kernel
  obtain ⟨own, t, hown, hrun, hstopped⟩ := shutdown_completes hmeets hs hrunning
  exact ⟨s, own, t, hs, hphase, hsessions, hown, hrun, hstopped⟩

end Relay

end RemoteX11.Server.Lifecycle
