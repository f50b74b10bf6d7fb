/-
  What either end makes of silence (`serve` of the client, `relay_loop` and `spawn_heartbeat` of the relay).

  Times are milliseconds. A loop waits in `select!` until a branch is ready, runs that branch and waits anew;
  the runtime gets round to it within `latency` of the moment at which a timer is due. The client puts its
  read timeout around one wait, and every wait ends with the next tick at the latest: `serve_times_out_iff`
  says how long the timeout may be to be of any use. The relay keeps a deadline across its waits, which only
  an answer to a heartbeat sets anew; `heartbeat_times_out_iff` says how long it has to be for a client that
  answers.
-/
import RemoteX11.Lib.Run
import Mathlib.Order.Lattice
import Mathlib.Algebra.Order.Ring.Nat

namespace RemoteX11.Transport

open RemoteX11.Lib

/-! ## The loop of the client -/

/-- An interval with `MissedTickBehavior::Delay`: when it is due after a tick at `now`; a tick that comes more
    than `slack` late counts as missed. -/
def nextTick (period slack due now : Nat) : Nat := if due + slack < now then now + period else due + period

theorem nextTick_le {period slack due now : Nat} (h : due ≤ now) :
    nextTick period slack due now ≤ now + period := by
  unfold nextTick
  split <;> omega

theorem nextTick_self (period slack now : Nat) : nextTick period slack now now = now + period := by
  unfold nextTick
  split <;> rfl

structure ServeTimers where
  /-- `read_timeout` -/
  readTimeout : Nat
  /-- `focus_interval` -/
  focusInterval : Nat
  /-- `ADVERTISE_TICK` -/
  advertiseTick : Nat
  slack : Nat
  latency : Nat

/-- The loop of `serve` between two branches. -/
structure ServeLoop where
  /-- when the present wait began, and with it the timeout -/
  began : Nat
  focusDue : Nat
  flowDue : Nat
  deriving DecidableEq

/-- The branch that ends a wait, but for those that end the loop. -/
inductive ServeBranch where
  | focus
  | frame
  | edge
  | flow
  deriving DecidableEq

/-- A turn of the loop: the branch, when it was taken and when it was done. -/
structure ServeTurn where
  branch : ServeBranch
  wake : Nat
  done : Nat

namespace ServeLoop

/-- When `serve` begins: the first tick of the focus has been taken, that of the advertiser is due. -/
def init (c : ServeTimers) (start : Nat) : ServeLoop := ⟨start, start + c.focusInterval, start⟩

/-- The runtime may look after the loop at `t`. -/
def Awake (c : ServeTimers) (s : ServeLoop) (t : Nat) : Prop :=
  s.began ≤ t ∧ t ≤ max s.began s.focusDue + c.latency ∧ t ≤ max s.began s.flowDue + c.latency

instance (c : ServeTimers) (s : ServeLoop) (t : Nat) : Decidable (s.Awake c t) := by
  unfold Awake
  infer_instance

/-- The branch is ready at `t`. A frame and an edge may come at any time. -/
def Ready (s : ServeLoop) (t : Nat) : ServeBranch → Prop
  | .focus => s.focusDue ≤ t
  | .flow => s.flowDue ≤ t
  | .frame | .edge => True

instance (s : ServeLoop) (t : Nat) (branch : ServeBranch) : Decidable (s.Ready t branch) := by
  cases branch <;> unfold Ready <;> infer_instance

def step (c : ServeTimers) (s : ServeLoop) (turn : ServeTurn) : Option ServeLoop :=
  if s.Awake c turn.wake ∧ s.Ready turn.wake turn.branch ∧ turn.wake ≤ turn.done then
    some {
      began := turn.done
      focusDue :=
        if turn.branch = .focus then nextTick c.focusInterval c.slack s.focusDue turn.wake else s.focusDue
      flowDue := if turn.branch = .flow then nextTick c.advertiseTick c.slack s.flowDue turn.wake else s.flowDue }
  else none

/-- The read timeout is ready at `t`, which ends the loop. -/
def TimesOut (c : ServeTimers) (s : ServeLoop) (t : Nat) : Prop := s.Awake c t ∧ s.began + c.readTimeout ≤ t

variable {c : ServeTimers} {s : ServeLoop}

/-- No tick is further away than one period. -/
structure Soon (c : ServeTimers) (s : ServeLoop) : Prop where
  focus : s.focusDue ≤ s.began + c.focusInterval
  flow : s.flowDue ≤ s.began + c.advertiseTick

theorem soon_init (c : ServeTimers) (start : Nat) : (init c start).Soon c where
  focus := Nat.le_refl _
  flow := Nat.le_add_right _ _

theorem Soon.step (h : s.Soon c) {turn : ServeTurn} {t : ServeLoop} (hstep : s.step c turn = some t) : t.Soon c := by
  rw [ServeLoop.step, Option.ite_none_right_eq_some] at hstep
  obtain ⟨⟨⟨hbegan, -, -⟩, hready, hdone⟩, heq⟩ := hstep
  obtain rfl := Option.some.inj heq
  obtain ⟨hfocus, hflow⟩ := h
  constructor
  · show (if turn.branch = .focus then _ else _) ≤ turn.done + c.focusInterval
    by_cases hbranch : turn.branch = .focus
    · rw [hbranch] at hready
      have hnext : nextTick c.focusInterval c.slack s.focusDue turn.wake ≤ turn.wake + c.focusInterval :=
        nextTick_le hready
      rw [if_pos hbranch]
      omega
    · rw [if_neg hbranch]
      omega
  · show (if turn.branch = .flow then _ else _) ≤ turn.done + c.advertiseTick
    by_cases hbranch : turn.branch = .flow
    · rw [hbranch] at hready
      have hnext : nextTick c.advertiseTick c.slack s.flowDue turn.wake ≤ turn.wake + c.advertiseTick :=
        nextTick_le hready
      rw [if_pos hbranch]
      omega
    · rw [if_neg hbranch]
      omega

/-- **The read timeout** ends the loop in some run, if and only if it is no longer than the shorter period and
    the latency together: each wait starts it anew. -/
theorem serve_times_out_iff (c : ServeTimers) (start : Nat) :
    (∃ turns s t, run (step c) (init c start) turns = some s ∧ s.TimesOut c t) ↔
      c.readTimeout ≤ min c.focusInterval c.advertiseTick + c.latency := by
  constructor
  · rintro ⟨turns, s, t, hrun, ⟨-, hfocus, hflow⟩, hready⟩
    have hsoon : s.Soon c := run_inv_all (fun s turn t h hstep => h.step hstep) (soon_init c start) hrun
    obtain ⟨hfocusSoon, hflowSoon⟩ := hsoon
    omega
  · intro h
    -- the tick of the advertiser, and then nothing
    refine ⟨[⟨.flow, start, start⟩], ⟨start, start + c.focusInterval, start + c.advertiseTick⟩,
      start + min c.focusInterval c.advertiseTick + c.latency, ?_, ?_, ?_⟩
    · have hawake : (init c start).Awake c start := by
        simp only [Awake, init]
        omega
      have hready : (init c start).Ready start .flow := Nat.le_refl start
      rw [run_cons, step, if_pos ⟨hawake, hready, Nat.le_refl start⟩]
      simp [init, nextTick_self]
    · simp only [Awake]
      omega
    · show start + c.readTimeout ≤ _
      omega

end ServeLoop

/-- `READ_TIMEOUT`, the interval that `connect_and_serve_once` gives the focus, and `ADVERTISE_TICK`: the
    timeout is out of reach of any latency below a minute and a half. -/
example : ¬ (100000 ≤ min 500 2000 + 90000) := by decide

/-! ## The loop of the relay -/

structure RelayTimers where
  heartbeatInterval : Nat
  heartbeatTimeout : Nat
  /-- `ADVERTISE_TICK` -/
  advertiseTick : Nat
  slack : Nat
  latency : Nat

/-- The loop of `relay_loop` between two branches. -/
structure RelayLoop where
  began : Nat
  /-- `heartbeat_deadline` -/
  deadline : Nat
  flowDue : Nat
  deriving DecidableEq

/-- The branch that ends a wait, but for those that end the loop. -/
inductive RelayBranch where
  /-- an inbound `HeartbeatAck` -/
  | ack
  /-- any other inbound frame -/
  | inbound
  | event
  | flow
  deriving DecidableEq

/-- A turn of the loop: the branch, when it was taken and when it was done. -/
structure RelayTurn where
  branch : RelayBranch
  wake : Nat
  done : Nat

namespace RelayLoop

def init (c : RelayTimers) (start : Nat) : RelayLoop := ⟨start, start + c.heartbeatTimeout, start⟩

/-- The runtime may look after the loop at `t`. -/
def Awake (c : RelayTimers) (s : RelayLoop) (t : Nat) : Prop :=
  s.began ≤ t ∧ t ≤ max s.began s.deadline + c.latency ∧ t ≤ max s.began s.flowDue + c.latency

instance (c : RelayTimers) (s : RelayLoop) (t : Nat) : Decidable (s.Awake c t) := by
  unfold Awake
  infer_instance

/-- The arrival of an answer sets the deadline anew. -/
def step (c : RelayTimers) (s : RelayLoop) (turn : RelayTurn) : Option RelayLoop :=
  if s.Awake c turn.wake ∧ (turn.branch = .flow → s.flowDue ≤ turn.wake) ∧ turn.wake ≤ turn.done then
    some {
      began := turn.done
      deadline := if turn.branch = .ack then turn.done + c.heartbeatTimeout else s.deadline
      flowDue := if turn.branch = .flow then nextTick c.advertiseTick c.slack s.flowDue turn.wake else s.flowDue }
  else none

/-- The deadline is ready at `t`, which ends the loop. -/
def Expires (c : RelayTimers) (s : RelayLoop) (t : Nat) : Prop := s.Awake c t ∧ s.deadline ≤ t

/-- When the answers of a run were handled. -/
def answers (turns : List RelayTurn) : List Nat := (turns.filter fun turn => turn.branch = .ack).map RelayTurn.done

variable {c : RelayTimers} {s : RelayLoop} {turns : List RelayTurn}

/-- The deadline of a run. -/
theorem deadline_eq {start : RelayLoop} {last : Nat} (hlast : start.deadline = last + c.heartbeatTimeout)
    (hrun : run (step c) start turns = some s) :
    s.deadline = (answers turns).getLast?.getD last + c.heartbeatTimeout := by
  induction turns generalizing start last with
  | nil =>
    obtain rfl := Option.some.inj hrun
    exact hlast
  | cons turn turns ih =>
    obtain ⟨next, hstep, hrun⟩ := run_cons_eq_some.mp hrun
    rw [step, Option.ite_none_right_eq_some] at hstep
    obtain rfl := Option.some.inj hstep.2
    by_cases hack : turn.branch = .ack
    · have hnext : (if turn.branch = .ack then turn.done + c.heartbeatTimeout else start.deadline) =
          turn.done + c.heartbeatTimeout := if_pos hack
      rw [ih hnext hrun]
      simp [answers, hack, List.getLast?_cons]
    · have hnext : (if turn.branch = .ack then turn.done + c.heartbeatTimeout else start.deadline) =
          last + c.heartbeatTimeout := (if_neg hack).trans hlast
      rw [ih hnext hrun]
      simp [answers, hack]

/-! ## Heartbeats -/

/-- When the `k`-th tick of `spawn_heartbeat` is due, if its timer begins at `origin` and the heartbeats are
    queued at `sent`: ticks that are missed while the queue is full are made up for. -/
def beat (interval origin : Nat) (sent : Nat → Nat) : Nat → Nat
  | 0 => origin + interval
  | k + 1 => max (origin + (k + 2) * interval) (sent k)

theorem le_beat (interval origin : Nat) (sent : Nat → Nat) (k : Nat) :
    origin + (k + 1) * interval ≤ beat interval origin sent k := by
  cases k with
  | zero => simp [beat]
  | succ k => exact Nat.le_max_left _ _

/-- The heartbeats of a connection whose client answers: each tick is taken up within the latency, and the
    answer is handled within `roundTrip` of it. -/
structure Heartbeats (c : RelayTimers) (start roundTrip : Nat) where
  origin : Nat
  tick : Nat → Nat
  sent : Nat → Nat
  /-- when the answer is handled -/
  ack : Nat → Nat
  begins : origin ≤ start + c.latency
  due : ∀ k, beat c.heartbeatInterval origin sent k ≤ tick k
  taken : ∀ k, tick k ≤ beat c.heartbeatInterval origin sent k + c.latency
  queued : ∀ k, tick k ≤ sent k
  later : ∀ k, sent k ≤ ack k
  soon : ∀ k, ack k ≤ tick k + roundTrip

variable {start roundTrip : Nat}

theorem Heartbeats.first (h : Heartbeats c start roundTrip) :
    h.ack 0 ≤ start + 2 * c.latency + c.heartbeatInterval + roundTrip := by
  have hbegins := h.begins
  have htaken : h.tick 0 ≤ h.origin + c.heartbeatInterval + c.latency := h.taken 0
  have hsoon := h.soon 0
  omega

/-- One answer is not far from the next: the ticks keep to the timer, so lateness does not add up. -/
theorem Heartbeats.next (h : Heartbeats c start roundTrip) (k : Nat) :
    h.ack (k + 1) ≤ h.ack k + c.latency + c.heartbeatInterval + roundTrip := by
  have hnominal : h.origin + (k + 2) * c.heartbeatInterval =
      h.origin + (k + 1) * c.heartbeatInterval + c.heartbeatInterval := by
    rw [Nat.succ_mul (k + 1), Nat.add_assoc]
  have htick : h.origin + (k + 1) * c.heartbeatInterval ≤ h.tick k := (le_beat ..).trans (h.due k)
  have hqueued := h.queued k
  have hlater := h.later k
  have htaken : h.tick (k + 1) ≤ max (h.origin + (k + 2) * c.heartbeatInterval) (h.sent k) + c.latency :=
    h.taken (k + 1)
  have hsoon := h.soon (k + 1)
  omega

/-- The run has handled the answers so far, and the next one is still to come at `t`. -/
def Heartbeats.Before (h : Heartbeats c start roundTrip) (turns : List RelayTurn) (t : Nat) : Prop :=
  (∀ k d, (answers turns)[k]? = some d → d = h.ack k) ∧ t ≤ h.ack (answers turns).length

theorem Heartbeats.not_expires (h : Heartbeats c start roundTrip)
    (hfits : 2 * c.latency + c.heartbeatInterval + roundTrip < c.heartbeatTimeout)
    (hrun : run (step c) (init c start) turns = some s) {t : Nat} (hbefore : h.Before turns t) :
    ¬ s.Expires c t := by
  rintro ⟨-, hexpired⟩
  obtain ⟨hanswers, hnext⟩ := hbefore
  rw [deadline_eq rfl hrun] at hexpired
  cases hlast : (answers turns).getLast? with
  | none =>
    rw [List.getLast?_eq_none_iff.mp hlast, List.length_nil] at hnext
    rw [hlast, Option.getD_none] at hexpired
    have hfirst := h.first
    omega
  | some d =>
    rw [hlast, Option.getD_some] at hexpired
    rw [List.getLast?_eq_getElem?] at hlast
    have hlen := (List.getElem?_eq_some_iff.mp hlast).1
    obtain rfl := hanswers _ d hlast
    have hgap := h.next ((answers turns).length - 1)
    rw [show (answers turns).length - 1 + 1 = (answers turns).length by omega] at hgap
    omega

/-- The latest heartbeats that the latency allows: the task begins late, and every tick is taken up late. -/
def Heartbeats.latest (c : RelayTimers) (start roundTrip : Nat) : Heartbeats c start roundTrip where
  origin := start + c.latency
  tick k := start + c.latency + (k + 1) * c.heartbeatInterval + c.latency
  sent k := start + c.latency + (k + 1) * c.heartbeatInterval + c.latency
  ack k := start + c.latency + (k + 1) * c.heartbeatInterval + c.latency + roundTrip
  begins := Nat.le_refl _
  due k := by
    cases k with
    | zero => simp [beat]
    | succ k =>
      simp only [beat, Nat.add_mul]
      omega
  taken k := Nat.add_le_add_right (le_beat ..) _
  queued _ := Nat.le_refl _
  later _ := Nat.le_add_right _ _
  soon _ := Nat.le_refl _

/-- **A client that answers every heartbeat** is given up in some run, whatever frames, events and ticks it
    has, if and only if the timeout is no longer than the interval, the round trip and twice the latency
    together: the task of the heartbeats may begin late, and its first tick may be taken up late. -/
theorem heartbeat_times_out_iff (c : RelayTimers) (start roundTrip : Nat) :
    (∃ (h : Heartbeats c start roundTrip) (turns : List RelayTurn) (s : RelayLoop) (t : Nat),
      run (step c) (init c start) turns = some s ∧ h.Before turns t ∧ s.Expires c t) ↔
    c.heartbeatTimeout ≤ 2 * c.latency + c.heartbeatInterval + roundTrip := by
  constructor
  · rintro ⟨h, turns, s, t, hrun, hbefore, hexpires⟩
    by_contra hfits
    exact h.not_expires (Nat.not_le.mp hfits) hrun hbefore hexpires
  · intro h
    -- a frame is handled until the deadline is there, and the first answer is the latest
    let turn : RelayTurn := ⟨.inbound, start, start + c.heartbeatTimeout⟩
    refine ⟨.latest c start roundTrip, [turn], ⟨start + c.heartbeatTimeout, start + c.heartbeatTimeout, start⟩,
      start + c.heartbeatTimeout, ?_, ⟨by simp [answers, turn], ?_⟩, ?_, Nat.le_refl _⟩
    · have hawake : (init c start).Awake c start := by
        simp only [Awake, init]
        omega
      rw [run_cons, step, if_pos ⟨hawake, nofun, Nat.le_add_right _ _⟩]
      rfl
    · show start + c.heartbeatTimeout ≤ start + c.latency + (0 + 1) * c.heartbeatInterval + c.latency + roundTrip
      omega
    · simp only [Awake]
      omega

end RelayLoop

/-- `HEARTBEAT_INTERVAL` and `HEARTBEAT_TIMEOUT`: with ticks that are a second late an answer may take
    58 seconds, less a millisecond. -/
example : ¬ (90000 ≤ 2 * 1000 + 30000 + 57999) := by decide

end RemoteX11.Transport
