/-
  One session of the GUI (`launcher/record.rs`, `launcher/session.rs`, the tasks of `launcher/mod.rs`).

  A record of the launcher stands for tasks that run on by themselves: a relay, a connector, or a connector in
  the supervision of an ssh tunnel. `Task` is what the record and its tasks share; the texts of a snapshot are
  left out. A connector that has not been polled yet shows the default of its phase, which is `Stopped`.

  `Stands` is a terminal phase that is settled, and `Asked` a session that has ended or been told to; what
  somebody does to a session in one step (`Changes`) keeps both.
-/
import RemoteX11.Client.Connector
import RemoteX11.Client.Supervise

namespace RemoteX11.Gui.Launching

open RemoteX11.Client.Connector RemoteX11.Client.Supervise

inductive SessionKind where
  | server
  | client
  | ssh
  deriving DecidableEq, Repr

inductive SessionPhase where
  | starting
  | running
  | reconnecting
  | stopped
  | failed
  deriving DecidableEq, Repr

namespace SessionPhase

def isTerminal (p : SessionPhase) : Bool := p = .stopped ∨ p = .failed

def isLive (p : SessionPhase) : Bool := !p.isTerminal

end SessionPhase

def mapConnectorPhase : ConnectorPhase → SessionPhase
  | .connecting | .handshaking => .starting
  | .serving => .running
  | .reconnecting => .reconnecting
  | .stopped => .stopped
  | .failed => .failed

/-- `ssh_conclusion`, without its text. -/
def sshConclusion : SupervisionEnd → SessionPhase
  | .session (.ok _) => .stopped
  | .session (.error _) | .tunnelDown _ | .rebuildExhausted .. => .failed

/-- Where the task of an ssh session is. -/
inductive SshStage where
  /-- `open_tunnel` -/
  | opening
  /-- the `select!` of `supervise` and the force signal -/
  | supervised
  | ended
  deriving DecidableEq, Repr

/-- Where the sender of the force signal is. -/
inductive Force where
  /-- in the record -/
  | held
  /-- with the thread that sleeps `STOP_GRACE` -/
  | timer
  /-- sent or dropped: the receiver resolves either way -/
  | fired
  deriving DecidableEq, Repr

/-- A record and what runs behind it. -/
structure Task where
  kind : SessionKind
  terminal : Option SessionPhase
  /-- `is_running` of the relay -/
  running : Bool
  /-- the connector has been polled -/
  begun : Bool
  phase : ConnectorPhase
  stopRequested : Bool
  /-- what `connect_and_serve` returned -/
  result : Option SessionResult
  stage : SshStage
  force : Force

inductive TaskEvent where
  /-- `run_cycles` is polled for the first time -/
  | begins
  | phase (p : ConnectorPhase)
  | returns (r : SessionResult)
  | opened
  | openFails
  | supervisedEnds (result : SupervisionEnd)
  | forced
  | timer
  /-- the accept loop ends without being asked -/
  | relayStops
  /-- `wait_stopped` returns -/
  | relayStopped

namespace Task

variable {a b : Task}

def new (kind : SessionKind) : Task := ⟨kind, none, true, false, .stopped, false, none, .opening, .held⟩

/-- `phase` of `SessionRecord::snapshot`. -/
def shown (a : Task) : SessionPhase :=
  match a.kind with
  | .server => a.terminal.getD (if a.running then .running else .stopped)
  | .client => mapConnectorPhase a.phase
  | .ssh => a.terminal.getD (mapConnectorPhase a.phase)

/-- `SessionRecord::request_stop`; the force signal goes to the thread of `stop`. -/
def requestStop (a : Task) : Task :=
  match a.kind with
  | .server => { a with running := false }
  | .client => { a with stopRequested := true }
  | .ssh => { a with stopRequested := true, force := if a.force = .held then .timer else a.force }

/-- The record is dropped. -/
def dropRecord (a : Task) : Task := { a with force := if a.force = .held then .fired else a.force }

/-- Somebody polls the connector. -/
def Polled (a : Task) : Prop := a.kind = .client ∨ (a.kind = .ssh ∧ a.stage = .supervised)

instance : Decidable a.Polled := inferInstanceAs (Decidable (_ ∨ _))

/-- `supervise` can end so. -/
def Ends (a : Task) : SupervisionEnd → Prop
  | .session r => a.result = some r
  | .tunnelDown _ | .rebuildExhausted .. => a.begun = true ∧ a.result = none

instance : DecidablePred a.Ends
  | .session r => inferInstanceAs (Decidable (a.result = some r))
  | .tunnelDown _ => inferInstanceAs (Decidable (_ ∧ _))
  | .rebuildExhausted .. => inferInstanceAs (Decidable (_ ∧ _))

/-- The task of an ssh session has its conclusion. -/
def conclude (a : Task) (phase : SessionPhase) : Task := { a with stage := .ended, terminal := some phase }

def step (a : Task) : TaskEvent → Option Task
  | .begins => if a.Polled ∧ a.begun = false then
      some (if a.stopRequested then { a with begun := true, result := some (.ok ()) }
        else { a with begun := true, phase := .connecting }) else none
  | .phase p => if (a.Polled ∧ a.begun = true ∧ a.result = none) ∧ (mapConnectorPhase p).isTerminal = false then
      some { a with phase := p } else none
  | .returns r => if a.Polled ∧ a.begun = true ∧ a.result = none then
      some { a with result := some r, phase := if r.isOk then .stopped else .failed } else none
  | .opened => if a.kind = .ssh ∧ a.stage = .opening then some { a with stage := .supervised } else none
  | .openFails => if a.kind = .ssh ∧ a.stage = .opening then some (a.conclude .failed) else none
  | .supervisedEnds result => if (a.kind = .ssh ∧ a.stage = .supervised) ∧ a.Ends result then
      some (a.conclude (sshConclusion result)) else none
  | .forced => if (a.kind = .ssh ∧ a.stage = .supervised) ∧ a.force = .fired then
      some (a.conclude .failed) else none
  | .timer => if a.force = .timer then some { a with force := .fired } else none
  | .relayStops => if a.kind = .server then some { a with running := false } else none
  | .relayStopped => if a.kind = .server ∧ a.running = false then
      some { a with terminal := some .stopped } else none

theorem requestStop_server (h : a.kind = .server) : a.requestStop = { a with running := false } := by
  simp [requestStop, h]

theorem requestStop_client (h : a.kind = .client) : a.requestStop = { a with stopRequested := true } := by
  simp [requestStop, h]

theorem requestStop_ssh (h : a.kind = .ssh) : a.requestStop =
    { a with stopRequested := true, force := if a.force = .held then .timer else a.force } := by
  simp [requestStop, h]

/-! ## What holds of every session -/

structure Ok (a : Task) : Prop where
  unbegun : a.begun = false → a.phase = .stopped ∧ a.result = none
  begun : a.begun = true → a.result = none → (mapConnectorPhase a.phase).isTerminal = false
  returned : ∀ r, a.result = some r → a.phase = if r.isOk then .stopped else .failed
  opening : a.kind = .ssh → a.stage = .opening → a.begun = false
  ended : a.kind = .ssh → (a.stage = .ended ↔ a.terminal.isSome)
  relay : a.kind = .server → ∀ p, a.terminal = some p → p = .stopped ∧ a.running = false
  stop : a.kind = .ssh → a.stopRequested = true → a.force ≠ .held

theorem ok_new (kind : SessionKind) : (new kind).Ok where
  unbegun _ := ⟨rfl, rfl⟩
  begun h := by simp [new] at h
  returned _ h := by simp [new] at h
  opening _ _ := rfl
  ended _ := by simp [new]
  relay _ _ h := by simp [new] at h
  stop _ h := by simp [new] at h

theorem ne_held_of_ite {x y : Force} (h : y ≠ .held) : (if x = .held then y else x) ≠ .held := by
  split
  · exact h
  · assumption

theorem Ok.requestStop (h : a.Ok) : a.requestStop.Ok := by
  cases hkind : a.kind with
  | server =>
    rw [requestStop_server hkind]
    exact ⟨h.unbegun, h.begun, h.returned, h.opening, h.ended, fun hs p hp => ⟨(h.relay hs p hp).1, rfl⟩, h.stop⟩
  | client =>
    rw [requestStop_client hkind]
    exact ⟨h.unbegun, h.begun, h.returned, h.opening, h.ended, h.relay, fun hssh => by simp [hkind] at hssh⟩
  | ssh =>
    rw [requestStop_ssh hkind]
    exact ⟨h.unbegun, h.begun, h.returned, h.opening, h.ended, h.relay, fun _ _ => ne_held_of_ite (by decide)⟩

theorem Ok.dropRecord (h : a.Ok) : a.dropRecord.Ok :=
  ⟨h.unbegun, h.begun, h.returned, h.opening, h.ended, h.relay, fun _ _ => ne_held_of_ite (by decide)⟩

theorem Ok.conclude (h : a.Ok) (hkind : a.kind = .ssh) (phase : SessionPhase) : (a.conclude phase).Ok where
  unbegun := h.unbegun
  begun := h.begun
  returned := h.returned
  opening _ hopening := by simp [Task.conclude] at hopening
  ended _ := by simp [Task.conclude]
  relay hserver := by simp [Task.conclude, hkind] at hserver
  stop := h.stop

theorem Polled.not_opening (h : a.Polled) : a.kind = .ssh → a.stage ≠ .opening := by
  intro hssh hopening
  rcases h with hclient | ⟨-, hstage⟩
  · simp [hssh] at hclient
  · simp [hopening] at hstage

theorem Ok.step (h : a.Ok) {event : TaskEvent} (hstep : a.step event = some b) : b.Ok := by
  cases event <;> simp only [Task.step, Option.ite_none_right_eq_some, Option.some.injEq] at hstep
  case begins =>
    obtain ⟨⟨hpolled, hbegun⟩, rfl⟩ := hstep
    obtain ⟨hphase, hresult⟩ := h.unbegun hbegun
    have hopening : a.kind = .ssh → a.stage = .opening → true = false := by
      intro hssh hopening
      exact absurd hopening (hpolled.not_opening hssh)
    split
    · refine ⟨by simp, by simp, ?_, hopening, h.ended, h.relay, h.stop⟩
      intro r hr
      obtain rfl := Option.some.inj hr
      exact hphase
    · refine ⟨by simp, fun _ _ => rfl, ?_, hopening, h.ended, h.relay, h.stop⟩
      intro r hr
      simp [hresult] at hr
  case phase p =>
    obtain ⟨⟨⟨-, hbegun, hresult⟩, hlive⟩, rfl⟩ := hstep
    refine ⟨?_, fun _ _ => hlive, ?_, h.opening, h.ended, h.relay, h.stop⟩
    · intro hnot
      simp [hbegun] at hnot
    · intro r hr
      simp [hresult] at hr
  case returns r =>
    obtain ⟨⟨-, hbegun, -⟩, rfl⟩ := hstep
    refine ⟨?_, by simp, ?_, h.opening, h.ended, h.relay, h.stop⟩
    · intro hnot
      simp [hbegun] at hnot
    · intro r' hr
      obtain rfl := Option.some.inj hr
      rfl
  case opened =>
    obtain ⟨⟨hssh, hstage⟩, rfl⟩ := hstep
    refine ⟨h.unbegun, h.begun, h.returned, by simp, fun _ => ?_, h.relay, h.stop⟩
    rw [← h.ended hssh, hstage]
    simp
  case openFails =>
    obtain ⟨⟨hssh, -⟩, rfl⟩ := hstep
    exact h.conclude hssh _
  case supervisedEnds result =>
    obtain ⟨⟨⟨hssh, -⟩, -⟩, rfl⟩ := hstep
    exact h.conclude hssh _
  case forced =>
    obtain ⟨⟨⟨hssh, -⟩, -⟩, rfl⟩ := hstep
    exact h.conclude hssh _
  case timer =>
    obtain ⟨-, rfl⟩ := hstep
    exact ⟨h.unbegun, h.begun, h.returned, h.opening, h.ended, h.relay, fun _ _ => by simp⟩
  case relayStops =>
    obtain ⟨-, rfl⟩ := hstep
    exact ⟨h.unbegun, h.begun, h.returned, h.opening, h.ended, fun hs p hp => ⟨(h.relay hs p hp).1, rfl⟩, h.stop⟩
  case relayStopped =>
    obtain ⟨⟨hserver, hstopped⟩, rfl⟩ := hstep
    have hnot : a.kind ≠ .ssh := by simp [hserver]
    refine ⟨h.unbegun, h.begun, h.returned, h.opening, fun hssh => absurd hssh hnot, fun _ p hp => ?_, h.stop⟩
    exact ⟨(Option.some.inj hp).symm, hstopped⟩

/-! ## When a terminal phase stands -/

/-- What the session shows may still change, terminal as it is. -/
def Unsettled (a : Task) : Prop :=
  match a.kind with
  | .server => False
  | .client => a.begun = false ∧ a.stopRequested = false
  | .ssh => a.terminal = none ∧ (a.begun = false ∨ a.result = some (.ok ()))

theorem unsettled_client (h : a.kind = .client) : a.Unsettled ↔ a.begun = false ∧ a.stopRequested = false := by
  simp [Unsettled, h]

theorem unsettled_ssh (h : a.kind = .ssh) :
    a.Unsettled ↔ a.terminal = none ∧ (a.begun = false ∨ a.result = some (.ok ())) := by
  simp [Unsettled, h]

theorem not_unsettled_server (h : a.kind = .server) : ¬ a.Unsettled := by
  simp [Unsettled, h]

theorem shown_server (h : a.kind = .server) :
    a.shown = a.terminal.getD (if a.running then .running else .stopped) := by
  simp [shown, h]

theorem shown_client (h : a.kind = .client) : a.shown = mapConnectorPhase a.phase := by
  simp [shown, h]

theorem shown_ssh (h : a.kind = .ssh) : a.shown = a.terminal.getD (mapConnectorPhase a.phase) := by
  simp [shown, h]

theorem Ok.terminal_none (h : a.Ok) (hssh : a.kind = .ssh) (hstage : a.stage ≠ .ended) : a.terminal = none := by
  cases hterminal : a.terminal with
  | none => rfl
  | some p => exact absurd ((h.ended hssh).mpr (by rw [hterminal]; rfl)) hstage

theorem Polled.shown (hpolled : a.Polled) (h : a.Ok) : a.shown = mapConnectorPhase a.phase := by
  rcases hpolled with hclient | ⟨hssh, hstage⟩
  · exact shown_client hclient
  · rw [shown_ssh hssh, h.terminal_none hssh (by simp [hstage])]
    rfl

/-- A terminal phase that is settled. -/
structure Stands (a : Task) (p : SessionPhase) : Prop where
  ok : a.Ok
  shown : a.shown = p
  terminal : p.isTerminal = true
  settled : ¬ a.Unsettled

variable {p : SessionPhase}

theorem Stands.server_stopped (h : a.Stands p) (hserver : a.kind = .server) : a.running = false ∧ p = .stopped := by
  have hshown := h.shown
  rw [shown_server hserver] at hshown
  cases hterminal : a.terminal with
  | some q =>
    obtain ⟨hq, hrunning⟩ := h.ok.relay hserver q hterminal
    rw [hterminal, Option.getD_some] at hshown
    exact ⟨hrunning, hshown ▸ hq⟩
  | none =>
    rw [hterminal, Option.getD_none] at hshown
    cases hrunning : a.running with
    | false => exact ⟨rfl, by rw [← hshown, hrunning]; rfl⟩
    | true =>
      have hterminal := h.terminal
      rw [← hshown, hrunning] at hterminal
      exact absurd hterminal (by decide)

/-- A connector that is polled has returned, or starts only to stop. -/
theorem Stands.not_running (h : a.Stands p) (hpolled : a.Polled) (hbegun : a.begun = true) : a.result ≠ none := by
  intro hresult
  have hlive := h.ok.begun hbegun hresult
  rw [← hpolled.shown h.ok, h.shown, h.terminal] at hlive
  exact absurd hlive (by decide)

/-- A conclusion comes too late to change what a failed connector shows. -/
theorem Stands.failed (h : a.Stands p) (hssh : a.kind = .ssh) (hstage : a.stage = .supervised) :
    p = .failed ∧ ∃ e, a.result = some (.error e) := by
  have hpolled : a.Polled := .inr ⟨hssh, hstage⟩
  have hnone := h.ok.terminal_none hssh (by simp [hstage])
  have hsettled := h.settled
  rw [unsettled_ssh hssh, not_and, not_or, Bool.not_eq_false] at hsettled
  obtain ⟨hbegun, hnotOk⟩ := hsettled hnone
  cases hresult : a.result with
  | none => exact absurd hresult (h.not_running hpolled hbegun)
  | some r =>
    cases r with
    | ok u => exact absurd hresult hnotOk
    | error e =>
      have hphase := h.ok.returned _ hresult
      refine ⟨?_, e, rfl⟩
      rw [← h.shown, hpolled.shown h.ok, hphase]
      rfl

theorem Stands.conclude (h : a.Stands p) (hssh : a.kind = .ssh) {q : SessionPhase} (heq : q = p) :
    (a.conclude q).Stands p where
  ok := h.ok.conclude hssh q
  shown := by
    have hkind : (a.conclude q).kind = .ssh := hssh
    rw [shown_ssh hkind, ← heq]
    rfl
  terminal := h.terminal
  settled := by
    have hkind : (a.conclude q).kind = .ssh := hssh
    rw [unsettled_ssh hkind]
    simp [Task.conclude]

theorem Stands.not_opening (h : a.Stands p) (hssh : a.kind = .ssh) : a.stage ≠ .opening := by
  intro hstage
  have hsettled := h.settled
  rw [unsettled_ssh hssh, not_and, not_or] at hsettled
  exact (hsettled (h.ok.terminal_none hssh (by simp [hstage]))).1 (h.ok.opening hssh hstage)

theorem Stands.step (h : a.Stands p) {event : TaskEvent} (hstep : a.step event = some b) : b.Stands p := by
  have hok := h.ok.step hstep
  cases event <;> simp only [Task.step, Option.ite_none_right_eq_some, Option.some.injEq] at hstep
  case begins =>
    obtain ⟨⟨hpolled, hbegun⟩, rfl⟩ := hstep
    rcases hpolled with hclient | ⟨hssh, hstage⟩
    · have hsettled := h.settled
      rw [unsettled_client hclient, not_and, Bool.not_eq_false] at hsettled
      have hstop := hsettled hbegun
      rw [if_pos hstop] at hok ⊢
      refine ⟨hok, ?_, h.terminal, ?_⟩
      · exact (shown_client (a := { a with begun := true, result := some (.ok ()) }) hclient).trans
          ((shown_client hclient).symm.trans h.shown)
      · rw [unsettled_client (a := { a with begun := true, result := some (.ok ()) }) hclient]
        simp
    · obtain ⟨-, e, hresult⟩ := h.failed hssh hstage
      simp [(h.ok.unbegun hbegun).2] at hresult
  case phase q =>
    obtain ⟨⟨⟨hpolled, hbegun, hresult⟩, -⟩, -⟩ := hstep
    exact absurd hresult (h.not_running hpolled hbegun)
  case returns r =>
    obtain ⟨⟨hpolled, hbegun, hresult⟩, -⟩ := hstep
    exact absurd hresult (h.not_running hpolled hbegun)
  case opened => exact absurd hstep.1.2 (h.not_opening hstep.1.1)
  case openFails => exact absurd hstep.1.2 (h.not_opening hstep.1.1)
  case supervisedEnds result =>
    obtain ⟨⟨⟨hssh, hstage⟩, hends⟩, rfl⟩ := hstep
    obtain ⟨hfailed, e, hresult⟩ := h.failed hssh hstage
    refine h.conclude hssh ?_
    cases result with
    | session r =>
      obtain rfl : .error e = r := Option.some.inj (hresult.symm.trans hends)
      exact hfailed.symm
    | tunnelDown death => exact hfailed.symm
    | rebuildExhausted attempts lastError => exact hfailed.symm
  case forced =>
    obtain ⟨⟨⟨hssh, hstage⟩, -⟩, rfl⟩ := hstep
    exact h.conclude hssh (h.failed hssh hstage).1.symm
  case timer =>
    obtain ⟨-, rfl⟩ := hstep
    exact ⟨hok, h.shown, h.terminal, h.settled⟩
  case relayStops =>
    obtain ⟨hserver, rfl⟩ := hstep
    obtain ⟨hrunning, -⟩ := h.server_stopped hserver
    have hsame : { a with running := false } = a := by rw [← hrunning]
    rw [hsame]
    exact h
  case relayStopped =>
    obtain ⟨⟨hserver, -⟩, rfl⟩ := hstep
    obtain ⟨-, rfl⟩ := h.server_stopped hserver
    refine ⟨hok, ?_, rfl, ?_⟩
    · exact (shown_server (a := { a with terminal := some .stopped }) hserver).trans rfl
    · exact not_unsettled_server hserver

theorem Stands.dropRecord (h : a.Stands p) : a.dropRecord.Stands p :=
  ⟨h.ok.dropRecord, h.shown, h.terminal, h.settled⟩

theorem Stands.requestStop (h : a.Stands p) : a.requestStop.Stands p := by
  have hok := h.ok.requestStop
  cases hkind : a.kind with
  | server =>
    have hsame : { a with running := false } = a := by rw [← (h.server_stopped hkind).1]
    rw [requestStop_server hkind, hsame]
    exact h
  | client =>
    rw [requestStop_client hkind] at hok ⊢
    refine ⟨hok, ?_, h.terminal, ?_⟩
    · exact (shown_client (a := { a with stopRequested := true }) hkind).trans
        ((shown_client hkind).symm.trans h.shown)
    · rw [unsettled_client (a := { a with stopRequested := true }) hkind]
      simp
  | ssh =>
    have hshown := h.shown
    have hsettled := h.settled
    rw [requestStop_ssh hkind] at hok ⊢
    rw [shown_ssh hkind] at hshown
    rw [unsettled_ssh hkind] at hsettled
    generalize (if a.force = .held then Force.timer else a.force) = force at hok ⊢
    refine ⟨hok, ?_, h.terminal, ?_⟩
    · exact (shown_ssh (a := { a with stopRequested := true, force := force }) hkind).trans hshown
    · rw [unsettled_ssh (a := { a with stopRequested := true, force := force }) hkind]
      exact hsettled

/-- What somebody does to a session in one step. -/
inductive Changes (a : Task) : Task → Prop where
  | same : Changes a a
  | requestStop : Changes a a.requestStop
  | dropRecord : Changes a a.dropRecord
  | step {b : Task} {event : TaskEvent} (hstep : a.step event = some b) : Changes a b

theorem Ok.changes (h : a.Ok) (hchanges : a.Changes b) : b.Ok := by
  cases hchanges with
  | same => exact h
  | requestStop => exact h.requestStop
  | dropRecord => exact h.dropRecord
  | step hstep => exact h.step hstep

theorem Stands.changes (h : a.Stands p) (hchanges : a.Changes b) : b.Stands p := by
  cases hchanges with
  | same => exact h
  | requestStop => exact h.requestStop
  | dropRecord => exact h.dropRecord
  | step hstep => exact h.step hstep

/-- The sender never comes back. -/
theorem Changes.held (hchanges : a.Changes b) (hheld : b.force = .held) : a.force = .held := by
  cases hchanges with
  | same => exact hheld
  | requestStop =>
    cases hkind : a.kind with
    | server => simpa [requestStop_server hkind] using hheld
    | client => simpa [requestStop_client hkind] using hheld
    | ssh =>
      rw [requestStop_ssh hkind] at hheld
      exact absurd hheld (ne_held_of_ite (by decide))
  | dropRecord => exact absurd hheld (ne_held_of_ite (by decide))
  | step hstep =>
    rename_i event
    cases event <;> simp only [Task.step, Option.ite_none_right_eq_some, Option.some.injEq] at hstep
    case begins =>
      obtain ⟨-, rfl⟩ := hstep
      split at hheld <;> exact hheld
    case timer =>
      obtain ⟨-, rfl⟩ := hstep
      simp at hheld
    all_goals
      obtain ⟨-, rfl⟩ := hstep
      exact hheld

/-! ## What a session has been asked -/

/-- What runs behind the session has been asked to end, or has ended. -/
def Asked (a : Task) : Prop :=
  match a.kind with
  | .server => a.running = false
  | .client => a.stopRequested = true ∨ a.result.isSome
  | .ssh => a.force ≠ .held

theorem asked_server (h : a.kind = .server) : a.Asked ↔ a.running = false := by
  simp [Asked, h]

theorem asked_client (h : a.kind = .client) : a.Asked ↔ a.stopRequested = true ∨ a.result.isSome := by
  simp [Asked, h]

theorem asked_ssh (h : a.kind = .ssh) : a.Asked ↔ a.force ≠ .held := by
  simp [Asked, h]

theorem asked_requestStop (a : Task) : a.requestStop.Asked := by
  cases hkind : a.kind with
  | server =>
    rw [requestStop_server hkind, asked_server (by exact hkind)]
  | client =>
    rw [requestStop_client hkind, asked_client (by exact hkind)]
    exact .inl rfl
  | ssh =>
    rw [requestStop_ssh hkind, asked_ssh (by exact hkind)]
    exact ne_held_of_ite (by decide)

/-- The kind stays, and with it what has been asked. -/
structure Further (a b : Task) : Prop where
  kind : b.kind = a.kind
  running : a.running = false → b.running = false
  stopRequested : a.stopRequested = true → b.stopRequested = true
  result : a.result.isSome → b.result.isSome

theorem further_step {event : TaskEvent} (hstep : a.step event = some b) : a.Further b := by
  cases event <;> simp only [Task.step, Option.ite_none_right_eq_some, Option.some.injEq] at hstep
  case begins =>
    obtain ⟨-, rfl⟩ := hstep
    split
    · exact ⟨rfl, id, id, fun _ => rfl⟩
    · exact ⟨rfl, id, id, id⟩
  case returns r =>
    obtain ⟨-, rfl⟩ := hstep
    exact ⟨rfl, id, id, fun _ => rfl⟩
  case relayStops =>
    obtain ⟨-, rfl⟩ := hstep
    exact ⟨rfl, fun _ => rfl, id, id⟩
  all_goals
    obtain ⟨-, rfl⟩ := hstep
    exact ⟨rfl, id, id, id⟩

theorem further_requestStop (a : Task) : a.Further a.requestStop := by
  cases hkind : a.kind with
  | server =>
    rw [requestStop_server hkind]
    exact ⟨rfl, fun _ => rfl, id, id⟩
  | client =>
    rw [requestStop_client hkind]
    exact ⟨rfl, id, fun _ => rfl, id⟩
  | ssh =>
    rw [requestStop_ssh hkind]
    exact ⟨rfl, id, fun _ => rfl, id⟩

theorem Changes.further (hchanges : a.Changes b) : a.Further b := by
  cases hchanges with
  | same => exact ⟨rfl, id, id, id⟩
  | requestStop => exact further_requestStop a
  | dropRecord => exact ⟨rfl, id, id, id⟩
  | step hstep => exact further_step hstep

theorem Asked.changes (h : a.Asked) (hchanges : a.Changes b) : b.Asked := by
  have hfurther := hchanges.further
  cases hkind : a.kind with
  | server =>
    rw [asked_server (hfurther.kind.trans hkind)]
    exact hfurther.running ((asked_server hkind).mp h)
  | client =>
    rw [asked_client (hfurther.kind.trans hkind)]
    exact ((asked_client hkind).mp h).imp hfurther.stopRequested hfurther.result
  | ssh =>
    rw [asked_ssh (hfurther.kind.trans hkind)]
    exact fun hheld => (asked_ssh hkind).mp h (hchanges.held hheld)

/-- A session that `remove` takes for dead has ended, if its connector had begun. -/
theorem Ok.asked_of_terminal (h : a.Ok) (hkind : a.kind ≠ .ssh) (hbegun : a.kind = .client → a.begun = true)
    (hterminal : a.shown.isTerminal = true) : a.Asked := by
  cases hcase : a.kind with
  | ssh => exact absurd hcase hkind
  | server =>
    have hstands : a.Stands a.shown := ⟨h, rfl, hterminal, not_unsettled_server hcase⟩
    exact (asked_server hcase).mpr (hstands.server_stopped hcase).1
  | client =>
    refine (asked_client hcase).mpr (.inr ?_)
    cases hresult : a.result with
    | some r => rfl
    | none =>
      have hlive := h.begun (hbegun hcase) hresult
      rw [← shown_client hcase, hterminal] at hlive
      exact absurd hlive (by decide)

end Task

end RemoteX11.Gui.Launching
