/-
  The health check of an ssh tunnel next to those who wait for it (`ssh.rs`: `SshTunnel`, `health_check_loop`).

  The check and `SshTunnel::wait` share the mutex around the child, which is fair: who asks stands in a queue,
  and the head of the queue has it. The check lets it go after one look. `wait` keeps it for as long as
  the process runs, and `supervise` parks on `wait` with the health signal beside it.

  `declared_iff`: the tunnel is declared dead by the first three checks in a row that fail, and by nothing
  else. `woken_iff`: behind a `wait` that has the mutex no further check gets to look, so the signal
  reaches the supervisor only through a check that had looked before, with two failed ones behind it.
-/
import RemoteX11.Lib.Run
import Mathlib.Data.List.Infix
import Mathlib.Data.List.TakeWhile

namespace RemoteX11.Client.Health

open RemoteX11.Lib

/-- `SshDefaults::MAX_CONSECUTIVE_FAILURES`. -/
def maxConsecutiveFailures : Nat := 3

/-- Who asks for the child. -/
inductive Party where
  | health
  | wait
  deriving DecidableEq, Repr

/-- Where `health_check_loop` is. -/
inductive HealthPhase where
  /-- in its `select!` -/
  | ticking
  /-- `child.lock().await` -/
  | locking
  /-- `check_tunnel_port` -/
  | probing (processAlive : Bool)
  | ended
  deriving DecidableEq, Repr

/-- An `SshTunnel` and its health task. -/
structure Tunnel where
  /-- the process runs -/
  running : Bool
  /-- the child has not been taken out by `kill` -/
  child : Bool
  /-- the queue at the child -/
  mutex : List Party
  /-- `cancel` holds a permit -/
  cancel : Bool
  /-- the health task has been told to abort -/
  aborted : Bool
  health : HealthPhase
  consecutiveFailures : Nat
  /-- `dead.notify_waiters` was called -/
  declared : Bool
  /-- a `notified` of `dead` is enabled -/
  subscribed : Bool
  /-- it has fired -/
  woken : Bool
  /-- the verdicts so far, oldest first -/
  checks : List Bool
  deriving DecidableEq, Repr

inductive Event where
  /-- the process exits -/
  | exit
  | tick
  /-- the check has the mutex; `tryWaitFails` when `try_wait` returned an error -/
  | look (tryWaitFails : Bool)
  /-- what `check_tunnel_port` returned -/
  | probed (portAlive : Bool)
  | cancelled
  /-- `wait` is called -/
  | wait
  /-- `wait` returns; `waitFails` when `Child::wait` returned an error -/
  | waited (waitFails : Bool)
  /-- `wait` is dropped -/
  | dropWait
  /-- `dead_notify().notified()` is enabled -/
  | subscribe
  /-- `kill` is called -/
  | kill
  /-- it gets the mutex, takes the child and kills it -/
  | take
  /-- the abort of the health task takes effect -/
  | abort
  deriving DecidableEq, Repr

namespace Tunnel

variable {s t : Tunnel}

/-- `SshTunnel::create`. -/
def create : Tunnel := ⟨true, true, [], false, false, .ticking, 0, false, false, false, []⟩

/-- A check is through. -/
def checked (s : Tunnel) (healthy : Bool) : Tunnel :=
  let s := { s with checks := s.checks ++ [healthy] }
  if healthy then { s with consecutiveFailures := 0, health := .ticking }
  else
    let s := { s with consecutiveFailures := s.consecutiveFailures + 1 }
    if s.consecutiveFailures ≥ maxConsecutiveFailures then
      { s with declared := true, woken := s.woken || s.subscribed, health := .ended }
    else { s with health := .ticking }

def step (s : Tunnel) : Event → Option Tunnel
  | .exit => some { s with running := false }
  | .tick => if s.health = .ticking then
      some { s with health := .locking, mutex := s.mutex ++ [.health] } else none
  | .look tryWaitFails => if s.health = .locking ∧ s.mutex.head? = some .health then
      some { s with health := .probing (s.child && (s.running || tryWaitFails)), mutex := s.mutex.tail } else none
  | .probed portAlive =>
    match s.health with
    | .probing processAlive => some (s.checked (processAlive && portAlive))
    | _ => none
  | .cancelled => if s.health = .ticking ∧ s.cancel then some { s with health := .ended, cancel := false } else none
  | .wait => if .wait ∈ s.mutex then none else some { s with mutex := s.mutex ++ [.wait] }
  -- an error at once where the child has been taken
  | .waited waitFails => if s.mutex.head? = some .wait ∧ (s.running = false ∨ s.child = false ∨ waitFails) then
      some { s with mutex := s.mutex.tail } else none
  | .dropWait => if .wait ∈ s.mutex then some { s with mutex := s.mutex.erase .wait } else none
  | .subscribe => if s.subscribed then none else some { s with subscribed := true }
  -- the handle is exclusive: nobody waits on it
  | .kill => if .wait ∈ s.mutex then none else some { s with cancel := true, aborted := true }
  | .take => if s.aborted ∧ s.mutex = [] then some { s with child := false, running := s.running && !s.child } else none
  | .abort => if s.aborted then some { s with health := .ended, mutex := s.mutex.erase .health } else none

/-! ## What declares a tunnel dead -/

/-- How many of the last verdicts are bad. -/
def failedAtEnd (checks : List Bool) : Nat := (checks.reverse.takeWhile fun healthy => !healthy).length

theorem failedAtEnd_concat (checks : List Bool) (healthy : Bool) :
    failedAtEnd (checks ++ [healthy]) = if healthy then 0 else failedAtEnd checks + 1 := by
  cases healthy <;> simp [failedAtEnd]

theorem replicate_prefix_iff (n : Nat) (xs : List Bool) :
    List.replicate n false <+: xs ↔ n ≤ (xs.takeWhile fun x => !x).length := by
  induction xs generalizing n with
  | nil =>
    have hnil : List.replicate n false <+: [] ↔ n = 0 := by simp
    rw [hnil]
    simp
  | cons x xs ih =>
    cases n with
    | zero => simp
    | succ n => cases x <;> simp [List.replicate_succ, List.cons_prefix_cons, ih]

theorem replicate_suffix_iff (n : Nat) (xs : List Bool) :
    List.replicate n false <:+ xs ↔ n ≤ failedAtEnd xs := by
  rw [← List.reverse_prefix, List.reverse_replicate, replicate_prefix_iff, failedAtEnd]

/-- `maxConsecutiveFailures` bad verdicts in a row, somewhere. -/
def FailedInARow (checks : List Bool) : Prop := List.replicate maxConsecutiveFailures false <:+: checks

theorem failedInARow_concat (checks : List Bool) (healthy : Bool) :
    FailedInARow (checks ++ [healthy]) ↔
      FailedInARow checks ∨ (healthy = false ∧ maxConsecutiveFailures ≤ failedAtEnd checks + 1) := by
  rw [FailedInARow, List.infix_concat_iff, replicate_suffix_iff, failedAtEnd_concat, or_comm]
  refine or_congr Iff.rfl ?_
  cases healthy <;> simp [maxConsecutiveFailures]

/-- The counter and the signal follow from the verdicts; behind the signal there are no more. -/
structure Counted (s : Tunnel) : Prop where
  failures : s.consecutiveFailures = failedAtEnd s.checks
  declared : s.declared = true ↔ FailedInARow s.checks
  ended : s.declared = true → s.health = .ended

theorem counted_create : Counted create := by
  refine ⟨rfl, ?_, nofun⟩
  simp [create, FailedInARow, maxConsecutiveFailures]

/-- A bad check that is not the last one. -/
theorem checked_false_of_lt (hfew : s.consecutiveFailures + 1 < maxConsecutiveFailures) :
    s.checked false = { s with
      checks := s.checks ++ [false], consecutiveFailures := s.consecutiveFailures + 1, health := .ticking } := by
  have hnot : ¬ s.consecutiveFailures + 1 ≥ maxConsecutiveFailures := by omega
  rw [checked]
  simp only [Bool.false_eq_true, if_false]
  exact if_neg hnot

/-- The one that gives the tunnel up. -/
theorem checked_false_of_le (hmany : maxConsecutiveFailures ≤ s.consecutiveFailures + 1) :
    s.checked false = { s with
      checks := s.checks ++ [false], consecutiveFailures := s.consecutiveFailures + 1, health := .ended,
      declared := true, woken := s.woken || s.subscribed } := by
  rw [checked]
  simp only [Bool.false_eq_true, if_false]
  exact if_pos hmany

theorem Counted.checked (h : s.Counted) (hnot : s.declared = false) (healthy : Bool) :
    (s.checked healthy).Counted := by
  have hrow : ¬ FailedInARow s.checks := by
    rw [← h.declared, hnot]
    decide
  cases healthy with
  | true =>
    have hend : failedAtEnd (s.checks ++ [true]) = 0 := failedAtEnd_concat s.checks true
    refine ⟨hend.symm, ?_, fun hdeclared => ?_⟩
    · have hstill : ¬ FailedInARow (s.checks ++ [true]) := by
        rw [failedInARow_concat]
        simp [hrow]
      exact ⟨fun hdeclared => absurd (hnot.symm.trans hdeclared) (by decide), fun h => absurd h hstill⟩
    · exact absurd (hnot.symm.trans hdeclared) (by decide)
  | false =>
    have hend : failedAtEnd (s.checks ++ [false]) = s.consecutiveFailures + 1 := by
      rw [failedAtEnd_concat, h.failures]
      rfl
    have hiff : FailedInARow (s.checks ++ [false]) ↔ maxConsecutiveFailures ≤ s.consecutiveFailures + 1 := by
      rw [failedInARow_concat, h.failures]
      simp [hrow]
    rcases Nat.lt_or_ge (s.consecutiveFailures + 1) maxConsecutiveFailures with hfew | hmany
    · rw [checked_false_of_lt hfew]
      refine ⟨hend.symm, ?_, fun hdeclared => absurd (hnot.symm.trans hdeclared) (by decide)⟩
      refine ⟨fun hdeclared => absurd (hnot.symm.trans hdeclared) (by decide), fun h => ?_⟩
      have hmany := hiff.mp h
      omega
    · rw [checked_false_of_le hmany]
      exact ⟨hend.symm, ⟨fun _ => hiff.mpr hmany, fun _ => rfl⟩, fun _ => rfl⟩

/-- A step that leaves the verdicts, the counter and the signal. -/
theorem Counted.of_frame (h : s.Counted) (hchecks : t.checks = s.checks)
    (hfailures : t.consecutiveFailures = s.consecutiveFailures) (hdeclared : t.declared = s.declared)
    (hended : s.health = .ended → t.health = .ended) : t.Counted where
  failures := by rw [hfailures, hchecks, h.failures]
  declared := by rw [hdeclared, hchecks, h.declared]
  ended hd := hended (h.ended (hdeclared ▸ hd))

theorem Counted.step (h : s.Counted) {event : Event} (hstep : s.step event = some t) : t.Counted := by
  cases event <;> simp only [Tunnel.step, Option.ite_none_right_eq_some, Option.ite_none_left_eq_some,
    Option.some.injEq] at hstep
  case exit =>
    subst hstep
    exact h.of_frame rfl rfl rfl id
  case tick =>
    obtain ⟨hhealth, rfl⟩ := hstep
    exact h.of_frame rfl rfl rfl fun hended => absurd (hhealth.symm.trans hended) (by decide)
  case look =>
    obtain ⟨⟨hhealth, -⟩, rfl⟩ := hstep
    exact h.of_frame rfl rfl rfl fun hended => absurd (hhealth.symm.trans hended) (by decide)
  case probed portAlive =>
    split at hstep
    · rename_i processAlive hhealth
      obtain rfl := Option.some.inj hstep
      refine h.checked ?_ _
      cases hdeclared : s.declared with
      | false => rfl
      | true => exact absurd (hhealth.symm.trans (h.ended hdeclared)) (by simp)
    · simp at hstep
  case cancelled =>
    obtain ⟨-, rfl⟩ := hstep
    exact h.of_frame rfl rfl rfl fun _ => rfl
  case abort =>
    obtain ⟨-, rfl⟩ := hstep
    exact h.of_frame rfl rfl rfl fun _ => rfl
  all_goals
    obtain ⟨-, rfl⟩ := hstep
    exact h.of_frame rfl rfl rfl id

/-- **Dead is who failed three times in a row**: in every run the tunnel is declared dead if and only if the
    verdicts contain that many bad ones in a row, however the loop, those who wait and the process take turns. -/
theorem declared_iff {events : List Event} (hrun : run step create events = some s) :
    s.declared = true ↔ FailedInARow s.checks := by
  have h : s.Counted := run_inv_all (fun s _ t h hstep => h.step hstep) counted_create hrun
  exact h.declared

/-- A port that does not answer. -/
def unanswered : List Event :=
  [.tick, .look false, .probed false, .tick, .look false, .probed false, .tick, .look false, .probed false]

theorem declared_iff_unanswered :
    ∃ s, run step create unanswered = some s ∧ s.declared = true := by
  have hrun : run step create unanswered =
      some { create with health := .ended, consecutiveFailures := 3, declared := true,
                         checks := [false, false, false] } := by decide
  have hrow : FailedInARow [false, false, false] := List.infix_refl _
  exact ⟨_, hrun, (declared_iff hrun).mpr hrow⟩

/-! ## Behind a `wait` -/

/-- A `wait` that has the mutex lets it go. -/
def Releases : Event → Prop
  | .waited _ | .dropWait => True
  | _ => False

/-- What can have become of the check while a `wait` had the mutex: one that was on its way is done with. -/
structure Behind (s t : Tunnel) : Prop where
  front : t.mutex.head? = some .wait
  subscribed : t.subscribed = true
  asleep : t.woken = true → ∃ alive, s.health = .probing alive ∧ maxConsecutiveFailures ≤ s.consecutiveFailures + 1
  probing : ∀ alive, t.health = .probing alive →
    s.health = .probing alive ∧ t.consecutiveFailures = s.consecutiveFailures ∧ t.checks = s.checks
  checks : t.checks = s.checks ∨ ∃ alive healthy, s.health = .probing alive ∧ t.checks = s.checks ++ [healthy]

theorem behind_self (hfront : s.mutex.head? = some .wait) (hsubscribed : s.subscribed = true)
    (hasleep : s.woken = false) : Behind s s where
  front := hfront
  subscribed := hsubscribed
  asleep h := absurd (hasleep.symm.trans h) (by decide)
  probing _ h := ⟨h, rfl, rfl⟩
  checks := .inl rfl

theorem head?_append_of_some {α : Type} {xs : List α} {x : α} (h : xs.head? = some x) (ys : List α) :
    (xs ++ ys).head? = some x := by
  rw [List.head?_append, h]
  rfl

variable {r : Tunnel}

theorem Behind.probed (h : Behind s t) {alive : Bool} (hprobing : t.health = .probing alive) (healthy : Bool) :
    Behind s (t.checked healthy) := by
  obtain ⟨hsprobing, hfailures, hchecks⟩ := h.probing alive hprobing
  have hone : ∃ alive verdict, s.health = .probing alive ∧ t.checks ++ [healthy] = s.checks ++ [verdict] :=
    ⟨alive, healthy, hsprobing, by rw [hchecks]⟩
  cases healthy with
  | true => exact ⟨h.front, h.subscribed, h.asleep, fun _ hticking => by simp [checked] at hticking, .inr hone⟩
  | false =>
    rcases Nat.lt_or_ge (t.consecutiveFailures + 1) maxConsecutiveFailures with hfew | hmany
    · rw [checked_false_of_lt hfew]
      exact ⟨h.front, h.subscribed, h.asleep, fun _ hticking => by simp at hticking, .inr hone⟩
    · rw [checked_false_of_le hmany]
      exact ⟨h.front, h.subscribed, fun _ => ⟨alive, hsprobing, hfailures ▸ hmany⟩, fun _ hended => by simp at hended,
        .inr hone⟩

theorem Behind.step (h : Behind s t) {event : Event} (hkeeps : ¬ Releases event) (hstep : t.step event = some r) :
    Behind s r := by
  have hwaits : .wait ∈ t.mutex := List.mem_of_head? h.front
  cases event <;> simp only [Tunnel.step, Option.ite_none_right_eq_some, Option.ite_none_left_eq_some,
    Option.some.injEq] at hstep
  case exit =>
    subst hstep
    exact ⟨h.front, h.subscribed, h.asleep, h.probing, h.checks⟩
  case tick =>
    obtain ⟨-, rfl⟩ := hstep
    exact ⟨head?_append_of_some h.front _, h.subscribed, h.asleep, fun _ hlocking => by simp at hlocking,
      h.checks⟩
  case look =>
    -- the head of the queue is not the check
    obtain ⟨⟨-, hhead⟩, -⟩ := hstep
    rw [h.front] at hhead
    simp at hhead
  case probed portAlive =>
    split at hstep
    · rename_i alive hprobing
      obtain rfl := Option.some.inj hstep
      exact h.probed hprobing _
    · simp at hstep
  case cancelled =>
    obtain ⟨-, rfl⟩ := hstep
    exact ⟨h.front, h.subscribed, h.asleep, fun _ hended => by simp at hended, h.checks⟩
  case wait => exact absurd hwaits hstep.1
  case waited => exact absurd trivial hkeeps
  case dropWait => exact absurd trivial hkeeps
  case subscribe => exact absurd h.subscribed hstep.1
  case kill => exact absurd hwaits hstep.1
  case take =>
    obtain ⟨⟨-, hempty⟩, -⟩ := hstep
    rw [hempty] at hwaits
    simp at hwaits
  case abort =>
    obtain ⟨-, rfl⟩ := hstep
    refine ⟨?_, h.subscribed, h.asleep, fun _ hended => by simp at hended, h.checks⟩
    obtain ⟨rest, hrest⟩ : ∃ rest, t.mutex = .wait :: rest := by
      cases hqueue : t.mutex with
      | nil => simp [hqueue] at hwaits
      | cons party rest =>
        have hfront := h.front
        rw [hqueue, List.head?_cons, Option.some.injEq] at hfront
        exact ⟨rest, by rw [hfront]⟩
    show (t.mutex.erase .health).head? = some .wait
    rw [hrest]
    rfl

/-- **The health signal behind a `wait`.** While a `wait` has the mutex and listens to the signal, some run wakes it
    if and only if a check is past its look and its failure would be the last one; how the port is afterwards does
    not matter. That check is the only one that any run completes. -/
theorem woken_iff (hfront : s.mutex.head? = some .wait) (hsubscribed : s.subscribed = true)
    (hasleep : s.woken = false) :
    ((∃ events t, (∀ event ∈ events, ¬ Releases event) ∧ run step s events = some t ∧ t.woken = true) ↔
      ∃ alive, s.health = .probing alive ∧ maxConsecutiveFailures ≤ s.consecutiveFailures + 1) ∧
    ∀ events t, (∀ event ∈ events, ¬ Releases event) → run step s events = some t →
      t.checks = s.checks ∨ ∃ alive healthy, s.health = .probing alive ∧ t.checks = s.checks ++ [healthy] := by
  have hbehind : ∀ events t, (∀ event ∈ events, ¬ Releases event) → run step s events = some t → Behind s t := by
    intro events t hkeeps hrun
    have hmeets : Meets step (fun _ event => ¬ Releases event) s events :=
      meets_of_forall (fun _ event hmem => hkeeps event hmem) s
    exact run_inv (fun _ _ _ h hkeeps hstep => h.step hkeeps hstep)
      (behind_self hfront hsubscribed hasleep) hmeets hrun
  refine ⟨⟨?_, ?_⟩, fun events t hkeeps hrun => (hbehind events t hkeeps hrun).checks⟩
  · rintro ⟨events, t, hkeeps, hrun, hwoken⟩
    exact (hbehind events t hkeeps hrun).asleep hwoken
  · rintro ⟨alive, hprobing, hmany⟩
    have hstep : s.step (.probed false) = some (s.checked false) := by
      simp [Tunnel.step, hprobing]
    refine ⟨[.probed false], s.checked false, ?_, ?_, ?_⟩
    · intro event hmem
      rw [List.mem_singleton] at hmem
      rw [hmem]
      exact id
    · rw [run_cons, hstep]
      rfl
    · rw [checked_false_of_le hmany]
      show (s.woken || s.subscribed) = true
      rw [hsubscribed, Bool.or_true]

/-- A tunnel whose port never answered, watched from now on. -/
def watchedLate : Tunnel :=
  { create with mutex := [.wait], health := .probing true, consecutiveFailures := 2, subscribed := true,
                checks := [false, false] }

theorem woken_iff_late :
    ∃ events t, (∀ event ∈ events, ¬ Releases event) ∧ run step watchedLate events = some t ∧ t.woken = true := by
  have hlast : ∃ alive, watchedLate.health = .probing alive ∧
      maxConsecutiveFailures ≤ watchedLate.consecutiveFailures + 1 := ⟨true, rfl, by decide⟩
  exact (woken_iff rfl rfl rfl).1.mpr hlast

end Tunnel

end RemoteX11.Client.Health
