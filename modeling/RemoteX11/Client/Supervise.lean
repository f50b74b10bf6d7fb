/-
  The supervisor of the ssh tunnel (`ssh.rs`, `supervise` and `RebuildPolicy`).

  `supervise` awaits at four places: its three `select!`s, which poll the session first, and the
  `kill` of the tunnel. `step` is one poll of the `select!` it is at, with what is ready then, or the end of
  a `kill`. The machine keeps a log of what it did, oldest first; tunnels are of any type.

  `supervise_sound`: over every run, no tunnel outlives a rebuild or the return, the budget is exhausted only
  by that many failures after one death, a session that is ready when it is polled decides the result, and
  nothing is rebuilt with `auto_reconnect` off.
-/
import RemoteX11.Lib.Run

namespace RemoteX11.Client.Supervise

open RemoteX11.Lib

/-- What the session future resolves to. -/
abbrev SessionResult := Except String Unit

inductive TunnelDeath where
  /-- the process exited, with what `wait` returned -/
  | exit (status : Except String Int)
  | unhealthy
  deriving DecidableEq, Repr

inductive SupervisionEnd where
  | session (r : SessionResult)
  | tunnelDown (death : TunnelDeath)
  | rebuildExhausted (attempts : Nat) (lastError : String)
  deriving DecidableEq, Repr

/-- Delays in milliseconds; a counter of attempts. -/
structure RebuildPolicy where
  baseDelay : Nat
  maxDelay : Nat
  maxAttempts : UInt32
  deriving DecidableEq, Repr

def RebuildPolicy.backoffFor (policy : RebuildPolicy) (failures : Nat) : Nat :=
  min (min (policy.baseDelay * 2 ^ min failures 10) (2 ^ 64 - 1)) policy.maxDelay

/-- The result of the first `select!`. -/
inductive Watched where
  | done (r : SessionResult)
  | dead (death : TunnelDeath)
  deriving DecidableEq, Repr

/-- Where `supervise` is. -/
inductive Phase where
  /-- the first `select!` -/
  | watching
  /-- `tunnel.kill().await` -/
  | killing (watched : Watched)
  /-- the second `select!`, in front of an attempt -/
  | backoff (delay : Nat)
  /-- the third one -/
  | rebuilding
  | returned (result : SupervisionEnd)
  deriving DecidableEq, Repr

/-- What `supervise` has done. -/
inductive Act (τ : Type) where
  /-- it was handed a tunnel -/
  | handed (t : τ)
  | died (death : TunnelDeath)
  | killed (t : τ)
  | rebuild
  | rebuildFailed (e : String)
  | returned (result : SupervisionEnd)
  deriving DecidableEq

structure Supervisor (τ : Type) where
  phase : Phase
  tunnel : τ
  failures : Nat
  lastError : Option String
  log : List (Act τ)

/-- What is ready when a `select!` is polled. -/
structure Poll (τ : Type) where
  session : Option SessionResult
  exited : Option (Except String Int)
  dead : Bool
  slept : Bool
  rebuilt : Option (Except String τ)

inductive Input (τ : Type) where
  | poll (p : Poll τ)
  | killed

variable {τ : Type}

namespace Supervisor

/-- The call of `supervise` with its first tunnel. -/
def new (tunnel : τ) : Supervisor τ := ⟨.watching, tunnel, 0, none, [.handed tunnel]⟩

def logged (s : Supervisor τ) (act : Act τ) : Supervisor τ := { s with log := s.log ++ [act] }

def finish (s : Supervisor τ) (result : SupervisionEnd) : Supervisor τ :=
  { s.logged (.returned result) with phase := .returned result }

/-- The top of the inner loop. -/
def nextAttempt (policy : RebuildPolicy) (s : Supervisor τ) : Supervisor τ :=
  if s.failures ≥ policy.maxAttempts.toNat then
    s.finish (.rebuildExhausted s.failures
      (s.lastError.getD "tunnel could not be re-established"))
  else { s with phase := .backoff (policy.backoffFor s.failures) }

/-- The tunnel is seen dead. -/
def lost (s : Supervisor τ) (death : TunnelDeath) : Supervisor τ :=
  { s.logged (.died death) with phase := .killing (.dead death) }

/-- The first `select!`. -/
def watch (s : Supervisor τ) (p : Poll τ) : Supervisor τ :=
  match p.session, p.exited, p.dead with
  | some r, _, _ => { s with phase := .killing (.done r) }
  | none, some status, _ => s.lost (.exit status)
  | none, none, true => s.lost .unhealthy
  | none, none, false => s

/-- The tunnel is killed; what was watched decides how it goes on. -/
def afterKill (policy : RebuildPolicy) (autoReconnect : Bool) (s : Supervisor τ) :
    Watched → Supervisor τ
  | .done r => (s.logged (.killed s.tunnel)).finish (.session r)
  | .dead death =>
    let s := s.logged (.killed s.tunnel)
    if autoReconnect then s.nextAttempt policy else s.finish (.tunnelDown death)

/-- The second `select!`. When it has slept, the third one calls `rebuild` before it polls anything. -/
def sleep (s : Supervisor τ) (p : Poll τ) : Supervisor τ :=
  match p.session, p.slept with
  | some r, _ => s.finish (.session r)
  | none, true => { s.logged .rebuild with phase := .rebuilding }
  | none, false => s

/-- The third `select!`. -/
def attempt (policy : RebuildPolicy) (s : Supervisor τ) (p : Poll τ) : Supervisor τ :=
  match p.session, p.rebuilt with
  | some r, _ => s.finish (.session r)
  | none, some (.ok t) =>
    { s.logged (.handed t) with phase := .watching, tunnel := t, failures := 0, lastError := none }
  | none, some (.error e) =>
    nextAttempt policy { s.logged (.rebuildFailed e) with
      failures := s.failures + 1
      lastError := some e }
  | none, none => s

/-- The `select!` it is at is polled, or a `kill` ends. -/
def step (policy : RebuildPolicy) (autoReconnect : Bool) (s : Supervisor τ) :
    Input τ → Option (Supervisor τ)
  | .poll p =>
    match s.phase with
    | .watching => some (s.watch p)
    | .backoff _ => some (s.sleep p)
    | .rebuilding => some (s.attempt policy p)
    | _ => none
  | .killed =>
    match s.phase with
    | .killing watched => some (s.afterKill policy autoReconnect watched)
    | _ => none

end Supervisor

/-! ## What the log says -/

/-- The tunnels it was handed and has not killed since. -/
def owed [DecidableEq τ] (log : List (Act τ)) : List τ :=
  log.foldl (fun owed act => match act with
    | .handed t => t :: owed
    | .killed t => owed.erase t
    | _ => owed) []

def Act.isRebuildFailed : Act τ → Bool
  | .rebuildFailed _ => true
  | _ => false

/-- Since the last death `n` rebuilds have failed and none has succeeded. -/
def FailedSinceDeath (log : List (Act τ)) (n : Nat) : Prop :=
  ∃ before death after, log = before ++ .died death :: after ∧
    (∀ act ∈ after, (∀ d, act ≠ .died d) ∧ ∀ t, act ≠ .handed t) ∧
    after.countP Act.isRebuildFailed = n

theorem FailedSinceDeath.snoc {log : List (Act τ)} {n : Nat} (h : FailedSinceDeath log n) {act : Act τ}
    (hdied : ∀ d, act ≠ .died d) (hhanded : ∀ t, act ≠ .handed t) :
    FailedSinceDeath (log ++ [act]) (n + if act.isRebuildFailed then 1 else 0) := by
  obtain ⟨before, death, after, rfl, hafter, rfl⟩ := h
  refine ⟨before, death, after ++ [act], by simp, ?_, ?_⟩
  · intro act' hact'
    rcases List.mem_append.mp hact' with h | h
    · exact hafter act' h
    · rw [List.mem_singleton.mp h]
      exact ⟨hdied, hhanded⟩
  · rw [List.countP_append, List.countP_singleton]

/-- What must hold of the log before an act is added to it. -/
def Allowed [DecidableEq τ] (policy : RebuildPolicy) (autoReconnect : Bool) (log : List (Act τ)) :
    Act τ → Prop
  | .rebuild => owed log = [] ∧ autoReconnect = true
  | .returned (.rebuildExhausted n _) =>
    owed log = [] ∧ n = policy.maxAttempts.toNat ∧ FailedSinceDeath log policy.maxAttempts.toNat
  | .returned _ => owed log = []
  | _ => True

/-- Every act was allowed when it was made. -/
def Audited [DecidableEq τ] (policy : RebuildPolicy) (autoReconnect : Bool) (log : List (Act τ)) : Prop :=
  ∀ before act after, log = before ++ act :: after → Allowed policy autoReconnect before act

theorem Audited.snoc [DecidableEq τ] {policy : RebuildPolicy} {autoReconnect : Bool}
    {log : List (Act τ)} {act : Act τ} (h : Audited policy autoReconnect log)
    (hact : Allowed policy autoReconnect log act) : Audited policy autoReconnect (log ++ [act]) := by
  intro before act' after heq
  rcases List.append_eq_append_iff.mp heq with ⟨more, hmore, hrest⟩ | ⟨more, hmore, hrest⟩
  · -- the act is the last one
    cases more with
    | nil =>
      rw [List.append_nil] at hmore
      cases hrest
      rwa [hmore]
    | cons x xs =>
      rw [List.cons_append] at hrest
      have := congrArg List.length hrest
      simp at this
  · cases more with
    | nil =>
      rw [List.append_nil] at hmore
      cases hrest
      rwa [← hmore]
    | cons x xs =>
      rw [List.cons_append] at hrest
      cases hrest
      exact h before act' xs hmore

/-! ## The invariant -/

/-- The machine at each of its awaits. -/
def Standing [DecidableEq τ] (policy : RebuildPolicy) (autoReconnect : Bool) (s : Supervisor τ) : Prop :=
  match s.phase with
  | .watching => owed s.log = [s.tunnel] ∧ s.failures = 0
  | .killing (.done _) => owed s.log = [s.tunnel]
  | .killing (.dead _) => owed s.log = [s.tunnel] ∧ s.failures = 0 ∧ FailedSinceDeath s.log 0
  | .backoff _ | .rebuilding =>
    owed s.log = [] ∧ autoReconnect = true ∧ FailedSinceDeath s.log s.failures ∧
      s.failures < policy.maxAttempts.toNat
  | .returned result => ∃ before, s.log = before ++ [.returned result]

structure Inv [DecidableEq τ] (policy : RebuildPolicy) (autoReconnect : Bool) (s : Supervisor τ) : Prop where
  audited : Audited policy autoReconnect s.log
  standing : Standing policy autoReconnect s

theorem owed_snoc [DecidableEq τ] (log : List (Act τ)) (act : Act τ) :
    owed (log ++ [act]) = match act with
      | .handed t => t :: owed log
      | .killed t => (owed log).erase t
      | _ => owed log := by
  unfold owed
  rw [List.foldl_append, List.foldl_cons, List.foldl_nil]

section Steps

variable [DecidableEq τ] {policy : RebuildPolicy} {autoReconnect : Bool} {s : Supervisor τ}

/-- Returning, once nothing is owed. -/
theorem Inv.finish {result : SupervisionEnd} (haudited : Audited policy autoReconnect s.log)
    (hallowed : Allowed policy autoReconnect s.log (.returned result)) :
    Inv policy autoReconnect (s.finish result) :=
  ⟨haudited.snoc hallowed, ⟨s.log, rfl⟩⟩

/-- The top of the inner loop, with nothing owed. -/
theorem Inv.nextAttempt (hauto : autoReconnect = true) (haudited : Audited policy autoReconnect s.log)
    (howed : owed s.log = []) (hfailed : FailedSinceDeath s.log s.failures)
    (hbudget : s.failures ≤ policy.maxAttempts.toNat) :
    Inv policy autoReconnect (s.nextAttempt policy) := by
  unfold Supervisor.nextAttempt
  split
  · rename_i hfull
    have heq : s.failures = policy.maxAttempts.toNat := by omega
    exact Inv.finish haudited ⟨howed, heq, heq ▸ hfailed⟩
  · rename_i hless
    exact ⟨haudited, ⟨howed, hauto, hfailed, Nat.lt_of_not_le hless⟩⟩

theorem Inv.lost (h : Inv policy autoReconnect s) (hphase : s.phase = .watching) (death : TunnelDeath) :
    Inv policy autoReconnect (s.lost death) := by
  have hstanding := h.standing
  unfold Standing at hstanding
  rw [hphase] at hstanding
  refine ⟨h.audited.snoc trivial, ⟨?_, hstanding.2, ?_⟩⟩
  · show owed (s.log ++ [.died death]) = _
    rw [owed_snoc]
    exact hstanding.1
  · exact ⟨s.log, death, [], rfl, by simp, rfl⟩

theorem Inv.watch (h : Inv policy autoReconnect s) (hphase : s.phase = .watching) (p : Poll τ) :
    Inv policy autoReconnect (s.watch p) := by
  unfold Supervisor.watch
  split
  · have hstanding := h.standing
    unfold Standing at hstanding
    rw [hphase] at hstanding
    exact ⟨h.audited, hstanding.1⟩
  · exact h.lost hphase _
  · exact h.lost hphase _
  · exact h

theorem Inv.afterKill (h : Inv policy autoReconnect s) {watched : Watched}
    (hphase : s.phase = .killing watched) :
    Inv policy autoReconnect (s.afterKill policy autoReconnect watched) := by
  have hstanding := h.standing
  unfold Standing at hstanding
  rw [hphase] at hstanding
  have haudited : Audited policy autoReconnect (s.logged (.killed s.tunnel)).log :=
    h.audited.snoc trivial
  -- the tunnel was the only one owed
  have hnone : owed s.log = [s.tunnel] → owed (s.logged (.killed s.tunnel)).log = [] := by
    intro howed
    show owed (s.log ++ [.killed s.tunnel]) = []
    rw [owed_snoc, howed]
    exact List.erase_cons_head _ _
  cases watched with
  | done r => exact Inv.finish haudited (hnone hstanding)
  | dead death =>
    obtain ⟨howed, hzero, hfailed⟩ := hstanding
    unfold Supervisor.afterKill
    simp only
    split
    · rename_i hauto
      refine Inv.nextAttempt hauto haudited (hnone howed) ?_ ?_
      · show FailedSinceDeath (s.log ++ [.killed s.tunnel]) s.failures
        rw [hzero]
        exact hfailed.snoc (by simp) (by simp)
      · show s.failures ≤ _
        rw [hzero]
        exact Nat.zero_le _
    · exact Inv.finish haudited (hnone howed)

theorem Inv.sleep (h : Inv policy autoReconnect s) {delay : Nat} (hphase : s.phase = .backoff delay)
    (p : Poll τ) : Inv policy autoReconnect (s.sleep p) := by
  have hstanding := h.standing
  unfold Standing at hstanding
  rw [hphase] at hstanding
  obtain ⟨howed, hauto, hfailed, hless⟩ := hstanding
  unfold Supervisor.sleep
  split
  · exact Inv.finish h.audited howed
  · refine ⟨h.audited.snoc ⟨howed, hauto⟩, ⟨?_, hauto, ?_, hless⟩⟩
    · show owed (s.log ++ [.rebuild]) = []
      rw [owed_snoc]
      exact howed
    · exact hfailed.snoc (by simp) (by simp)
  · exact h

theorem Inv.attempt (h : Inv policy autoReconnect s) (hphase : s.phase = .rebuilding) (p : Poll τ) :
    Inv policy autoReconnect (s.attempt policy p) := by
  have hstanding := h.standing
  unfold Standing at hstanding
  rw [hphase] at hstanding
  obtain ⟨howed, hauto, hfailed, hless⟩ := hstanding
  unfold Supervisor.attempt
  split
  · exact Inv.finish h.audited howed
  · rename_i t _ _
    refine ⟨h.audited.snoc trivial, ⟨?_, rfl⟩⟩
    show owed (s.log ++ [.handed t]) = [t]
    rw [owed_snoc, howed]
  · rename_i e _ _
    refine Inv.nextAttempt hauto (h.audited.snoc trivial) ?_ ?_ hless
    · show owed (s.log ++ [.rebuildFailed e]) = []
      rw [owed_snoc]
      exact howed
    · exact hfailed.snoc (by simp) (by simp)
  · exact h

theorem Inv.step {t : Supervisor τ} {input : Input τ} (h : Inv policy autoReconnect s)
    (hstep : s.step policy autoReconnect input = some t) : Inv policy autoReconnect t := by
  cases input with
  | poll p =>
    unfold Supervisor.step at hstep
    simp only at hstep
    split at hstep
    · rename_i hphase
      cases hstep
      exact h.watch hphase p
    · rename_i hphase
      cases hstep
      exact h.sleep hphase p
    · rename_i hphase
      cases hstep
      exact h.attempt hphase p
    · cases hstep
  | killed =>
    unfold Supervisor.step at hstep
    simp only at hstep
    split at hstep
    · rename_i hphase
      cases hstep
      exact h.afterKill hphase
    · cases hstep

theorem Inv.new (tunnel : τ) : Inv policy autoReconnect (Supervisor.new tunnel) := by
  refine ⟨?_, rfl, rfl⟩
  intro before act after heq
  cases before with
  | nil =>
    cases heq
    trivial
  | cons x xs =>
    have := congrArg List.length heq
    simp [Supervisor.new] at this

end Steps

/-! ## Every run -/

/-- `supervise` is at one of its `select!`s. -/
def Supervisor.polls (s : Supervisor τ) : Prop :=
  match s.phase with
  | .watching | .backoff _ | .rebuilding => True
  | .killing _ | .returned _ => False

/-- Once it is killed, the tunnel of a session that is done leaves only its result. -/
theorem step_done {policy : RebuildPolicy} {autoReconnect : Bool} {s : Supervisor τ} {r : SessionResult}
    (hphase : s.phase = .killing (.done r)) :
    (∃ u, s.step policy autoReconnect .killed = some u) ∧
      ∀ input u, s.step policy autoReconnect input = some u → u.phase = .returned (.session r) := by
  unfold Supervisor.step
  rw [hphase]
  refine ⟨⟨_, rfl⟩, ?_⟩
  intro input u hstep
  cases input with
  | poll p => cases hstep
  | killed =>
    cases hstep
    rfl

/-- A session that is ready when it is polled decides the result: at once, or after the `kill`. -/
theorem step_session {policy : RebuildPolicy} {autoReconnect : Bool} {s : Supervisor τ} {p : Poll τ}
    {r : SessionResult} (hpolls : s.polls) (hready : p.session = some r) :
    ∃ t, s.step policy autoReconnect (.poll p) = some t ∧
      (t.phase = .returned (.session r) ∨
        (∃ u, t.step policy autoReconnect .killed = some u) ∧
        ∀ input u, t.step policy autoReconnect input = some u → u.phase = .returned (.session r)) := by
  unfold Supervisor.polls at hpolls
  cases hphase : s.phase with
  | watching =>
    refine ⟨s.watch p, by simp only [Supervisor.step, hphase], .inr ?_⟩
    apply step_done
    simp only [Supervisor.watch, hready]
  | backoff delay =>
    refine ⟨s.sleep p, by simp only [Supervisor.step, hphase], .inl ?_⟩
    simp only [Supervisor.sleep, hready, Supervisor.finish]
  | rebuilding =>
    refine ⟨s.attempt policy p, by simp only [Supervisor.step, hphase], .inl ?_⟩
    simp only [Supervisor.attempt, hready, Supervisor.finish]
  | killing watched =>
    rw [hphase] at hpolls
    exact hpolls.elim
  | returned result =>
    rw [hphase] at hpolls
    exact hpolls.elim

/-- **The supervisor.** In every run: whenever a rebuild is started and whenever it returns, every tunnel it
    was handed has been killed; it returns `RebuildExhausted` only after exactly `max_attempts` failed
    rebuilds since the last death with no success in between, and so not at all while each death is followed
    by fewer; a session that is ready when it is polled decides the result; and with `auto_reconnect` off
    nothing is rebuilt. -/
theorem supervise_sound [DecidableEq τ] (policy : RebuildPolicy) (autoReconnect : Bool) (tunnel : τ)
    (inputs : List (Input τ)) (s : Supervisor τ)
    (h : run (Supervisor.step policy autoReconnect) (.new tunnel) inputs = some s) :
    (∀ before act after, s.log = before ++ act :: after →
      (act = .rebuild ∨ ∃ result, act = .returned result) → owed before = []) ∧
    (∀ result, s.phase = .returned result → ∃ before, s.log = before ++ [.returned result]) ∧
    (∀ before n e after, s.log = before ++ .returned (.rebuildExhausted n e) :: after →
      n = policy.maxAttempts.toNat ∧ FailedSinceDeath before policy.maxAttempts.toNat) ∧
    ((∀ before after n, s.log = before ++ after → FailedSinceDeath before n →
      n < policy.maxAttempts.toNat) → ∀ n e, .returned (.rebuildExhausted n e) ∉ s.log) ∧
    (∀ p r, s.polls → p.session = some r → ∃ t, s.step policy autoReconnect (.poll p) = some t ∧
      (t.phase = .returned (.session r) ∨
        (∃ u, t.step policy autoReconnect .killed = some u) ∧
        ∀ input u, t.step policy autoReconnect input = some u → u.phase = .returned (.session r))) ∧
    (autoReconnect = false → .rebuild ∉ s.log) := by
  have hinv : Inv policy autoReconnect s := run_inv_all (fun _ _ _ h hs => h.step hs) (Inv.new tunnel) h
  have hexhausted : ∀ before n e after, s.log = before ++ .returned (.rebuildExhausted n e) :: after →
      n = policy.maxAttempts.toNat ∧ FailedSinceDeath before policy.maxAttempts.toNat :=
    fun before n e after heq => (hinv.audited before _ after heq).2
  refine ⟨?_, ?_, hexhausted, ?_, ?_, ?_⟩
  · intro before act after heq hact
    have hallowed := hinv.audited before act after heq
    rcases hact with rfl | ⟨result, rfl⟩
    · exact hallowed.1
    · cases result with
      | session r => exact hallowed
      | tunnelDown death => exact hallowed
      | rebuildExhausted n e => exact hallowed.1
  · intro result hphase
    have hstanding := hinv.standing
    unfold Standing at hstanding
    rw [hphase] at hstanding
    exact hstanding
  · intro hfew n e hmem
    obtain ⟨before, after, heq⟩ := List.append_of_mem hmem
    obtain ⟨-, hfailed⟩ := hexhausted before n e after heq
    exact Nat.lt_irrefl _ (hfew before _ _ heq hfailed)
  · exact fun p r hpolls hready => step_session hpolls hready
  · intro hauto hmem
    obtain ⟨before, after, heq⟩ := List.append_of_mem hmem
    have hallowed := hinv.audited before _ after heq
    exact absurd hallowed.2 (by simp [hauto])

/-- The health check gives up on the first tunnel and the second one exits; two rebuilds fail after that. -/
theorem supervise_sound_exhausted :
    ∃ (inputs : List (Input Nat)) (s : Supervisor Nat),
      run (Supervisor.step ⟨500, 30000, 2⟩ true) (.new 0) inputs = some s ∧
      s.phase = .returned (.rebuildExhausted 2 "b") ∧
      ∃ before, s.log = before ++ [.returned (.rebuildExhausted 2 "b")] ∧ owed before = [] ∧
        FailedSinceDeath before 2 := by
  let quiet : Poll Nat := ⟨none, none, false, false, none⟩
  let inputs : List (Input Nat) := [.poll { quiet with dead := true }, .killed,
    .poll { quiet with slept := true }, .poll { quiet with rebuilt := some (.ok 1) },
    .poll { quiet with exited := some (.ok 255) }, .killed,
    .poll { quiet with slept := true }, .poll { quiet with rebuilt := some (.error "a") },
    .poll { quiet with slept := true }, .poll { quiet with rebuilt := some (.error "b") }]
  let s := (run (Supervisor.step ⟨500, 30000, 2⟩ true) (.new 0) inputs).getD (.new 0)
  have hrun : run (Supervisor.step ⟨500, 30000, 2⟩ true) (.new 0) inputs = some s := rfl
  obtain ⟨hreaped, hreturned, hexhausted, -⟩ := supervise_sound ⟨500, 30000, 2⟩ true 0 inputs s hrun
  obtain ⟨before, hlog⟩ := hreturned (.rebuildExhausted 2 "b") rfl
  refine ⟨inputs, s, hrun, rfl, before, hlog, ?_, ?_⟩
  · exact hreaped before _ [] hlog (.inr ⟨_, rfl⟩)
  · exact (hexhausted before 2 "b" [] hlog).2

end RemoteX11.Client.Supervise
