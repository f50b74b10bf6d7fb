/-
  The active X11 connections of the client (`proxy.rs`, `serve/mod.rs`, the session end of
  `connector.rs`, and the counter of `stats.rs`).

  The parties are the serve loop, the pump tasks, and the connector, which cleans up after the loop and
  connects again with the same counter and a new map of connections. A step is what a party does between
  two awaits or under the lock of the map. The loop goes on to its next frame only when it is idle, but
  a stop request drops it wherever it is. A task that was aborted ends at one of its next awaits, and
  may have been beyond its last one; a pump without an entry finds its write channel closed and ends like
  any other. The data and the audio channels are left out.
-/
import RemoteX11.Lib.Calls
import RemoteX11.Lib.Run
import RemoteX11.Lib.Table
import RemoteX11.Protocol.Messages

namespace RemoteX11.Stats

/-- `x11_connections_active`. -/
structure ActiveConnections where
  value : UInt32
  /-- the decrements that found it at zero -/
  underflows : Nat
  deriving DecidableEq, Repr

namespace ActiveConnections

/-- `inc_x11_connections`. -/
def inc (a : ActiveConnections) : ActiveConnections := { a with value := a.value + 1 }

/-- `dec_x11_connections`. -/
def dec (a : ActiveConnections) : ActiveConnections :=
  if a.value = 0 then { a with underflows := a.underflows + 1 } else { a with value := a.value - 1 }

/-- So many decrements. -/
def decTimes : Nat → ActiveConnections → ActiveConnections
  | 0, a => a
  | n + 1, a => decTimes n a.dec

/-- The counter says `n`, and no decrement has been lost. -/
def Counts (a : ActiveConnections) (n : Nat) : Prop := a.value.toNat = n ∧ a.underflows = 0

variable {a : ActiveConnections} {n : Nat}

theorem Counts.inc (h : a.Counts n) (hmax : n + 1 < 2 ^ 32) : a.inc.Counts (n + 1) := by
  refine ⟨?_, h.2⟩
  have hvalue := h.1
  show (a.value + 1).toNat = n + 1
  rw [UInt32.toNat_add, hvalue, UInt32.toNat_one]
  omega

theorem Counts.dec (h : a.Counts (n + 1)) : a.dec.Counts n := by
  have hvalue := h.1
  have hne : a.value ≠ 0 := by
    intro h0
    rw [h0] at hvalue
    cases hvalue
  unfold ActiveConnections.dec
  rw [if_neg hne]
  refine ⟨?_, h.2⟩
  have hle : (1 : UInt32) ≤ a.value := by
    rw [UInt32.le_iff_toNat_le, UInt32.toNat_one]
    omega
  show (a.value - 1).toNat = n
  rw [UInt32.toNat_sub_of_le _ _ hle, hvalue, UInt32.toNat_one]
  omega

theorem Counts.decTimes {m : Nat} (h : a.Counts (n + m)) : (decTimes m a).Counts n := by
  induction m generalizing a with
  | zero => exact h
  | succ m ih => exact ih (Counts.dec h)

end ActiveConnections

end RemoteX11.Stats

namespace RemoteX11.Client.Opens

open RemoteX11.Lib RemoteX11.Protocol RemoteX11.Stats

/-! ## The model -/

/-- Where a pump task stands. -/
inductive Stage where
  /-- in `pump_local_x11_connection` -/
  | pumping
  /-- `ChannelClose` is sent next, -/
  | closing
  /-- then the entry is removed, -/
  | removing
  /-- and the resource range is forgotten and the connection counted off -/
  | forgetting
  | ended
  | cancelled
  deriving DecidableEq, Repr

structure PumpTask where
  connId : ConnectionId
  /-- the session whose map it was given -/
  session : Nat
  stage : Stage
  aborted : Bool
  deriving DecidableEq, Repr

/-- The future of the task is gone. -/
def PumpTask.finished (t : PumpTask) : Bool := t.stage = .ended || t.stage = .cancelled

/-- It has not been counted off, by itself or by the cleanup. -/
def PumpTask.live (t : PumpTask) : Bool := !t.finished && !t.aborted

/-- Where the serve loop stands. -/
inductive Serve where
  | idle
  /-- `spawn_local_connection` waits for the local X server, -/
  | connecting (connId : ConnectionId)
  /-- for the `ChannelClose` of a failed connect to be sent, -/
  | refusing (connId : ConnectionId)
  /-- or for the lock of the map, with the task spawned -/
  | inserting (connId : ConnectionId) (task : Nat)
  /-- it has returned, or was dropped -/
  | returned
  /-- its connections are cleaned up -/
  | away
  deriving DecidableEq, Repr

/-- An increment without its task. -/
def Serve.pending : Serve → Nat
  | .connecting _ => 1
  | _ => 0

structure Proxy where
  stats : ActiveConnections
  /-- the task of each entry -/
  x11Connections : Table ConnectionId Nat
  tasks : List PumpTask
  session : Nat
  serve : Serve
  deriving DecidableEq, Repr

inductive Action where
  /-- a `ChannelOpen` for an X11 channel -/
  | channelOpen (connId : ConnectionId)
  /-- the local X server cannot be reached -/
  | connectFails
  | refused
  /-- `set_nodelay` fails -/
  | nodelayFails
  /-- the pump task is spawned, -/
  | spawn
  /-- and entered into the map -/
  | insert
  /-- a `ChannelClose` -/
  | channelClose (connId : ConnectionId)
  /-- `send_data_to_local` finds the task gone -/
  | prune (connId : ConnectionId)
  /-- the task comes to its next stage -/
  | move (task : Nat)
  /-- an aborted task is dropped at an await -/
  | cancel (task : Nat)
  /-- `serve` returns -/
  | serveEnds
  /-- `serve` is dropped -/
  | stop
  /-- `cleanup_connections` -/
  | cleanup
  | reconnect
  deriving DecidableEq, Repr

/-- `abort`. -/
def abort (tasks : List PumpTask) (i : Nat) : List PumpTask :=
  match tasks[i]? with
  | some t => tasks.set i { t with aborted := true }
  | none => tasks

/-- The tasks of all entries are aborted. -/
def abortAll (entries : List (ConnectionId × Nat)) (tasks : List PumpTask) : List PumpTask :=
  entries.foldl (fun tasks e => abort tasks e.2) tasks

namespace Proxy

def setTask (s : Proxy) (i : Nat) (t : PumpTask) : Proxy := { s with tasks := s.tasks.set i t }

/-- The next stage of a pump task. -/
def moveTask (s : Proxy) (i : Nat) (t : PumpTask) : Option Proxy :=
  match t.stage with
  | .pumping => some (s.setTask i { t with stage := .closing })
  | .closing => some (s.setTask i { t with stage := .removing })
  | .removing =>
    let conns := if t.session = s.session then s.x11Connections.remove t.connId else s.x11Connections
    some { s.setTask i { t with stage := .forgetting } with x11Connections := conns }
  | .forgetting => some { s.setTask i { t with stage := .ended } with stats := s.stats.dec }
  | .ended | .cancelled => none

def step (s : Proxy) : Action → Option Proxy
  | .channelOpen c =>
    if s.serve = .idle then some { s with stats := s.stats.inc, serve := .connecting c } else none
  | .connectFails =>
    match s.serve with
    | .connecting c => some { s with stats := s.stats.dec, serve := .refusing c }
    | _ => none
  | .refused =>
    match s.serve with
    | .refusing _ => some { s with serve := .idle }
    | _ => none
  | .nodelayFails =>
    match s.serve with
    | .connecting _ => some { s with serve := .returned }
    | _ => none
  | .spawn =>
    match s.serve with
    | .connecting c =>
      some { s with
        tasks := s.tasks ++ [⟨c, s.session, .pumping, false⟩]
        serve := .inserting c s.tasks.length }
    | _ => none
  | .insert =>
    match s.serve with
    | .inserting c i => some { s with x11Connections := s.x11Connections.put c i, serve := .idle }
    | _ => none
  | .channelClose c =>
    if s.serve = .idle then some { s with x11Connections := s.x11Connections.remove c } else none
  | .prune c =>
    let gone := ((s.x11Connections.get c).bind fun i => s.tasks[i]?).any PumpTask.finished
    if s.serve = .idle && gone then some { s with x11Connections := s.x11Connections.remove c } else none
  | .move i => (s.tasks[i]?).bind (s.moveTask i)
  | .cancel i =>
    match s.tasks[i]? with
    | some t =>
      if t.aborted && !t.finished then some (s.setTask i { t with stage := .cancelled }) else none
    | none => none
  | .serveEnds => if s.serve = .idle then some { s with serve := .returned } else none
  | .stop => if s.serve = .returned || s.serve = .away then none else some { s with serve := .returned }
  | .cleanup =>
    if s.serve = .returned then
      some { s with
        stats := ActiveConnections.decTimes s.x11Connections.entries.length s.stats
        tasks := abortAll s.x11Connections.entries s.tasks
        x11Connections := .empty
        serve := .away }
    else none
  | .reconnect =>
    if s.serve = .away then
      some { s with x11Connections := .empty, session := s.session + 1, serve := .idle }
    else none

/-- Before the first session. -/
def init : Proxy := ⟨⟨0, 0⟩, .empty, [], 0, .away⟩

/-- The pumps that run. -/
def openChannels (s : Proxy) : Nat := s.tasks.countP fun t => t.stage = .pumping

/-- Nothing is under way: the loop waits for a frame or for a session, and every task pumps or is
    gone. -/
def Quiet (s : Proxy) : Prop :=
  (s.serve = .idle ∨ s.serve = .away) ∧
    ∀ t ∈ s.tasks, t.finished = true ∨ t.stage = .pumping ∧ t.aborted = false

instance (s : Proxy) : Decidable s.Quiet := inferInstanceAs (Decidable (_ ∧ _))

/-- The counter is exact when nothing is under way, and no decrement has met zero. -/
def Exact (s : Proxy) : Prop :=
  (s.Quiet → s.stats.value.toNat = s.openChannels) ∧ s.stats.underflows = 0

/-- Every increment is taken back once: a connect is not abandoned between the increment and the task,
    the cleanup finds no entry of a task that has counted itself off, and no task does so after it was
    aborted. -/
def CountedOnce (s : Proxy) : Action → Prop
  | .channelOpen _ => s.stats.value.toNat + 1 < 2 ^ 32
  | .nodelayFails => False
  | .stop => s.serve.pending = 0
  | .cleanup => ∀ e ∈ s.x11Connections.entries, ∀ t ∈ s.tasks[e.2]?, t.stage ≠ .ended
  | .move i => ∀ t ∈ s.tasks[i]?, t.stage = .forgetting → t.aborted = false
  | _ => True

instance (s : Proxy) : (a : Action) → Decidable (s.CountedOnce a)
  | .channelOpen _ => inferInstanceAs (Decidable (_ < _))
  | .nodelayFails => isFalse id
  | .stop => inferInstanceAs (Decidable (_ = _))
  | .cleanup => inferInstanceAs (Decidable (∀ e ∈ s.x11Connections.entries, ∀ t ∈ s.tasks[e.2]?, t.stage ≠ .ended))
  | .move i => inferInstanceAs (Decidable (∀ t ∈ s.tasks[i]?, t.stage = .forgetting → t.aborted = false))
  | .connectFails | .refused | .spawn | .insert | .channelClose _ | .prune _ | .cancel _ | .serveEnds
  | .reconnect => isTrue trivial

/-! ## The invariant -/

structure Inv (s : Proxy) : Prop where
  counts : s.stats.Counts (s.tasks.countP PumpTask.live + s.serve.pending)
  /-- an entry is of a task of its connection, which has not been aborted -/
  entries : ∀ c i, s.x11Connections.get c = some i →
    ∃ t, s.tasks[i]? = some t ∧ t.connId = c ∧ t.aborted = false
  inserting : ∀ c i, s.serve = .inserting c i →
    ∃ t, s.tasks[i]? = some t ∧ t.connId = c ∧ t.aborted = false
  cancelled : ∀ t ∈ s.tasks, t.stage = .cancelled → t.aborted = true

variable {s t : Proxy}

theorem inv_init : init.Inv where
  counts := ⟨rfl, rfl⟩
  entries := nofun
  inserting := nofun
  cancelled := nofun

/-- Where nothing is under way the counter is exact. -/
theorem Inv.exact (h : s.Inv) : s.Exact := by
  refine ⟨?_, h.counts.2⟩
  rintro ⟨hserve, htasks⟩
  have hpending : s.serve.pending = 0 := by
    rcases hserve with hserve | hserve <;> rw [hserve] <;> rfl
  rw [h.counts.1, hpending, Nat.add_zero]
  apply List.countP_congr
  intro t ht
  rcases htasks t ht with hfin | ⟨hstage, haborted⟩
  · simp [PumpTask.live, hfin]
    rintro hstage
    simp [PumpTask.finished, hstage] at hfin
  · simp [PumpTask.live, PumpTask.finished, hstage, haborted]

/-- A task that moves, and perhaps takes its entry with it. -/
theorem Inv.task (h : s.Inv) {i : Nat} {x y : PumpTask} (hx : s.tasks[i]? = some x)
    (htasks : t.tasks = s.tasks.set i y) (hserve : t.serve = s.serve)
    (hconns : ∀ c j, t.x11Connections.get c = some j → s.x11Connections.get c = some j)
    (hconn : y.connId = x.connId) (haborted : y.aborted = x.aborted)
    (hcancelled : y.stage = .cancelled → y.aborted = true)
    (hcounts : t.stats.Counts (t.tasks.countP PumpTask.live + s.serve.pending)) : t.Inv := by
  have hkeep : ∀ (j : Nat) (c : ConnectionId), (∃ z, s.tasks[j]? = some z ∧ z.connId = c ∧ z.aborted = false) →
      ∃ z, t.tasks[j]? = some z ∧ z.connId = c ∧ z.aborted = false := by
    rintro j c ⟨z, hz, hzconn, hzaborted⟩
    rw [htasks]
    obtain ⟨-, rfl, hmine⟩ | ⟨-, hother⟩ := getElem?_set_of y hx hz
    · exact ⟨y, hmine, hconn.trans hzconn, haborted.trans hzaborted⟩
    · exact ⟨z, hother, hzconn, hzaborted⟩
  refine ⟨hserve ▸ hcounts, fun c j hj => hkeep j c (h.entries c j (hconns c j hj)), ?_, ?_⟩
  · intro c j hj
    exact hkeep j c (h.inserting c j (hserve ▸ hj))
  · intro z hz
    rw [htasks] at hz
    rcases List.mem_or_eq_of_mem_set hz with hz | rfl
    · exact h.cancelled z hz
    · exact hcancelled

/-- A task that is counted as before. -/
theorem Inv.countP_same (h : s.Inv) {i : Nat} {x y : PumpTask} (hx : s.tasks[i]? = some x)
    (hlive : y.live = x.live) :
    s.stats.Counts ((s.tasks.set i y).countP PumpTask.live + s.serve.pending) := by
  have hcount := countP_set PumpTask.live y hx
  rw [hlive] at hcount
  rw [show (s.tasks.set i y).countP PumpTask.live = s.tasks.countP PumpTask.live by omega]
  exact h.counts

/-- A task that goes on without being counted off. -/
theorem Inv.stage (h : s.Inv) {i : Nat} {x : PumpTask} (hx : s.tasks[i]? = some x) {next : Stage}
    (hold : x.finished = false) (hnew : next ≠ .ended ∧ next ≠ .cancelled) :
    (s.setTask i { x with stage := next }).Inv := by
  refine h.task (y := { x with stage := next }) hx rfl rfl (fun _ _ hj => hj) rfl rfl ?_ ?_
  · exact fun hc => absurd hc hnew.2
  · have hfinished : ({ x with stage := next } : PumpTask).finished = false := by
      simp [PumpTask.finished, hnew]
    apply h.countP_same hx
    simp [PumpTask.live, hold, hfinished]

theorem Inv.moveTask (h : s.Inv) {i : Nat} {x : PumpTask} (hx : s.tasks[i]? = some x)
    (hg : x.stage = .forgetting → x.aborted = false) (hstep : s.moveTask i x = some t) : t.Inv := by
  unfold Proxy.moveTask at hstep
  cases hstage : x.stage with
  | pumping =>
    rw [hstage] at hstep
    cases hstep
    exact h.stage hx (by simp [PumpTask.finished, hstage]) (by decide)
  | closing =>
    rw [hstage] at hstep
    cases hstep
    exact h.stage hx (by simp [PumpTask.finished, hstage]) (by decide)
  | removing =>
    rw [hstage] at hstep
    cases hstep
    refine h.task (y := { x with stage := .forgetting }) hx rfl rfl ?_ rfl rfl (by simp) ?_
    · intro c j hj
      simp only at hj
      split at hj
      · exact Table.get_of_get_remove hj
      · exact hj
    · exact h.countP_same hx (by simp [PumpTask.live, PumpTask.finished, hstage])
  | forgetting =>
    rw [hstage] at hstep
    cases hstep
    -- it is counted off, once
    have hcount := countP_set PumpTask.live { x with stage := .ended } hx
    have hlive : x.live = true := by simp [PumpTask.live, PumpTask.finished, hstage, hg hstage]
    rw [if_pos hlive, if_neg (by simp [PumpTask.live, PumpTask.finished])] at hcount
    refine h.task (y := { x with stage := .ended }) hx rfl rfl (fun _ _ hj => hj) rfl rfl (by simp) ?_
    apply ActiveConnections.Counts.dec
    have hcounts := h.counts
    rwa [show s.tasks.countP PumpTask.live + s.serve.pending =
      (s.tasks.set i { x with stage := .ended }).countP PumpTask.live + s.serve.pending + 1 by omega] at hcounts
  | ended =>
    rw [hstage] at hstep
    contradiction
  | cancelled =>
    rw [hstage] at hstep
    contradiction

/-- A step of the loop at the map. -/
theorem Inv.loop (h : s.Inv) (htasks : t.tasks = s.tasks)
    (hconns : ∀ c j, t.x11Connections.get c = some j →
      s.x11Connections.get c = some j ∨ s.serve = .inserting c j)
    (hserve : ∀ c j, t.serve = .inserting c j → s.serve = .inserting c j)
    (hcounts : t.stats.Counts (s.tasks.countP PumpTask.live + t.serve.pending)) : t.Inv := by
  refine ⟨htasks ▸ hcounts, ?_, ?_, ?_⟩
  · intro c j hj
    rw [htasks]
    rcases hconns c j hj with hold | hnew
    · exact h.entries c j hold
    · exact h.inserting c j hnew
  · intro c j hj
    rw [htasks]
    exact h.inserting c j (hserve c j hj)
  · rw [htasks]
    exact h.cancelled

/-- Different entries are of different tasks. -/
theorem Inv.nodup_entries (h : s.Inv) : (s.x11Connections.entries.map Prod.snd).Nodup := by
  have hkeys : s.x11Connections.entries.Nodup := s.x11Connections.nodup.of_map _
  apply hkeys.map_on
  rintro ⟨c, i⟩ he ⟨c', i'⟩ he' (rfl : i = i')
  obtain ⟨x, hx, rfl, -⟩ := h.entries c i (Table.mem_entries.mp he)
  obtain ⟨x', hx', rfl, -⟩ := h.entries c' i (Table.mem_entries.mp he')
  rw [Option.some.inj (hx.symm.trans hx')]

/-- The tasks of the entries are counted off together. -/
theorem countP_abortAll {entries : List (ConnectionId × Nat)} {tasks : List PumpTask}
    (hnodup : (entries.map Prod.snd).Nodup)
    (hlive : ∀ e ∈ entries, ∃ x, tasks[e.2]? = some x ∧ x.live = true) :
    (abortAll entries tasks).countP PumpTask.live + entries.length = tasks.countP PumpTask.live := by
  induction entries generalizing tasks with
  | nil => rfl
  | cons e entries ih =>
    rw [List.map_cons, List.nodup_cons] at hnodup
    obtain ⟨x, hx, hxlive⟩ := hlive e List.mem_cons_self
    have habort : abort tasks e.2 = tasks.set e.2 { x with aborted := true } := by
      unfold abort
      rw [hx]
    have hone := countP_set PumpTask.live { x with aborted := true } hx
    rw [if_pos hxlive, if_neg (by simp [PumpTask.live])] at hone
    have hrest : ∀ e' ∈ entries, ∃ z, (abort tasks e.2)[e'.2]? = some z ∧ z.live = true := by
      intro e' he'
      have hne : e.2 ≠ e'.2 := by
        intro heq
        exact hnodup.1 (List.mem_map.mpr ⟨e', he', heq.symm⟩)
      rw [habort, List.getElem?_set_ne hne]
      exact hlive e' (List.mem_cons_of_mem _ he')
    have hall := ih hnodup.2 hrest
    rw [List.length_cons]
    show (abortAll entries (abort tasks e.2)).countP PumpTask.live + (entries.length + 1) = _
    rw [habort] at hall ⊢
    omega

theorem cancelled_abortAll {entries : List (ConnectionId × Nat)} {tasks : List PumpTask}
    (h : ∀ x ∈ tasks, x.stage = .cancelled → x.aborted = true) :
    ∀ x ∈ abortAll entries tasks, x.stage = .cancelled → x.aborted = true := by
  induction entries generalizing tasks with
  | nil => exact h
  | cons e entries ih =>
    apply ih
    intro x hx hstage
    simp only [abort] at hx
    split at hx
    · rcases List.mem_or_eq_of_mem_set hx with hx | rfl
      · exact h x hx hstage
      · rfl
    · exact h x hx hstage

/-- The increment of the loop becomes the task's. -/
theorem Inv.spawn (h : s.Inv) {c : ConnectionId} (hserve : s.serve = .connecting c) :
    ({ s with
      tasks := s.tasks ++ [⟨c, s.session, .pumping, false⟩]
      serve := .inserting c s.tasks.length } : Proxy).Inv := by
  refine ⟨?_, ?_, ?_, ?_⟩
  · have hcounts := h.counts
    rw [hserve] at hcounts
    simpa [PumpTask.live, PumpTask.finished, Serve.pending] using hcounts
  · intro c' i hi
    obtain ⟨x, hx, hconn, haborted⟩ := h.entries c' i hi
    refine ⟨x, ?_, hconn, haborted⟩
    rw [List.getElem?_append_left (List.getElem?_eq_some_iff.mp hx).1]
    exact hx
  · intro c' i hi
    cases hi
    exact ⟨_, List.getElem?_concat_length, rfl, rfl⟩
  · intro x hx hstage
    rcases List.mem_append.mp hx with hx | hx
    · exact h.cancelled x hx hstage
    · rw [List.mem_singleton.mp hx] at hstage
      cases hstage

/-- The entries are counted off, their tasks aborted. -/
theorem Inv.cleanup (h : s.Inv) (hserve : s.serve = .returned)
    (hg : ∀ e ∈ s.x11Connections.entries, ∀ t ∈ s.tasks[e.2]?, t.stage ≠ .ended) :
    ({ s with
      stats := ActiveConnections.decTimes s.x11Connections.entries.length s.stats
      tasks := abortAll s.x11Connections.entries s.tasks
      x11Connections := .empty
      serve := .away } : Proxy).Inv := by
  have hlive : ∀ e ∈ s.x11Connections.entries, ∃ x, s.tasks[e.2]? = some x ∧ x.live = true := by
    rintro ⟨c, i⟩ he
    obtain ⟨x, hx, -, haborted⟩ := h.entries c i (Table.mem_entries.mp he)
    have hended := hg _ he x hx
    have hcancelled : x.stage ≠ .cancelled := by
      intro hstage
      rw [h.cancelled x (List.mem_of_getElem? hx) hstage] at haborted
      cases haborted
    exact ⟨x, hx, by simp [PumpTask.live, PumpTask.finished, haborted, hended, hcancelled]⟩
  have hcount := countP_abortAll h.nodup_entries hlive
  refine ⟨?_, nofun, nofun, cancelled_abortAll h.cancelled⟩
  apply ActiveConnections.Counts.decTimes
  have hcounts := h.counts
  rw [hserve] at hcounts
  rwa [← hcount] at hcounts

theorem step_inv (h : s.Inv) {a : Action} (hg : s.CountedOnce a) (hstep : s.step a = some t) : t.Inv := by
  cases a with
  | channelOpen c =>
    simp only [step] at hstep
    split at hstep
    · rename_i hserve
      cases hstep
      refine h.loop rfl (fun _ _ hj => .inl hj) (by simp) ?_
      have hcounts := h.counts
      rw [hserve] at hcounts
      exact hcounts.inc (hcounts.1 ▸ hg)
    · contradiction
  | connectFails =>
    simp only [step] at hstep
    split at hstep
    · rename_i c hserve
      cases hstep
      refine h.loop rfl (fun _ _ hj => .inl hj) (by simp) ?_
      have hcounts := h.counts
      rw [hserve] at hcounts
      exact ActiveConnections.Counts.dec hcounts
    · contradiction
  | refused =>
    simp only [step] at hstep
    split at hstep
    · rename_i c hserve
      cases hstep
      refine h.loop rfl (fun _ _ hj => .inl hj) (by simp) ?_
      have hcounts := h.counts
      rwa [hserve] at hcounts
    · contradiction
  | nodelayFails => exact absurd hg id
  | spawn =>
    simp only [step] at hstep
    split at hstep
    · rename_i c hserve
      cases hstep
      exact h.spawn hserve
    · contradiction
  | insert =>
    simp only [step] at hstep
    split at hstep
    · rename_i c i hserve
      cases hstep
      have hcounts := h.counts
      rw [hserve] at hcounts
      refine h.loop rfl ?_ (by simp) hcounts
      intro c' j hj
      simp only [Table.get_put] at hj
      split at hj
      · rename_i hc
        cases hj
        exact .inr (hc ▸ hserve)
      · exact .inl hj
    · contradiction
  | channelClose c =>
    simp only [step] at hstep
    split at hstep
    · cases hstep
      exact h.loop rfl (fun _ _ hj => .inl (Table.get_of_get_remove hj)) (fun _ _ hj => hj) h.counts
    · contradiction
  | prune c =>
    simp only [step] at hstep
    split at hstep
    · cases hstep
      exact h.loop rfl (fun _ _ hj => .inl (Table.get_of_get_remove hj)) (fun _ _ hj => hj) h.counts
    · contradiction
  | move i =>
    obtain ⟨x, hx, hstep⟩ := Option.bind_eq_some_iff.mp hstep
    exact h.moveTask hx (hg x hx) hstep
  | cancel i =>
    simp only [step] at hstep
    split at hstep
    · rename_i x hx
      split at hstep
      · rename_i hcond
        cases hstep
        have haborted : x.aborted = true := (Bool.and_eq_true _ _ ▸ hcond).1
        refine h.task (y := { x with stage := .cancelled }) hx rfl rfl (fun _ _ hj => hj) rfl rfl
          (fun _ => haborted) ?_
        exact h.countP_same hx (by simp [PumpTask.live, haborted])
      · contradiction
    · contradiction
  | serveEnds =>
    simp only [step] at hstep
    split at hstep
    · rename_i hserve
      cases hstep
      have hcounts := h.counts
      rw [hserve] at hcounts
      exact h.loop rfl (fun _ _ hj => .inl hj) (by simp) hcounts
    · contradiction
  | stop =>
    simp only [step] at hstep
    split at hstep
    · contradiction
    · cases hstep
      refine h.loop rfl (fun _ _ hj => .inl hj) (by simp) ?_
      have hcounts := h.counts
      rwa [show s.serve.pending = 0 from hg] at hcounts
  | cleanup =>
    simp only [step] at hstep
    split at hstep
    · rename_i hserve
      cases hstep
      exact h.cleanup hserve hg
    · contradiction
  | reconnect =>
    simp only [step] at hstep
    split at hstep
    · rename_i hserve
      cases hstep
      have hcounts := h.counts
      rw [hserve] at hcounts
      refine h.loop rfl ?_ (by simp) hcounts
      simp
    · contradiction

/-- A run in which every increment is taken back once keeps the counter exact. -/
theorem exact_of_counted {as : List Action} (hg : Meets step CountedOnce init as)
    (hr : run step init as = some s) : s.Exact :=
  (run_inv (fun _ _ _ hI hG h => step_inv hI hG h) inv_init hg hr).exact

/-- A pump is through before it is entered, and the cleanup counts it off again. -/
def throughAtOnce : List Action :=
  [.reconnect, .channelOpen ⟨1⟩, .spawn, .move 0, .move 0, .move 0, .move 0, .insert, .serveEnds, .cleanup]

/-- A stop request comes while the loop waits for the local X server. -/
def stoppedAtConnect : List Action := [.reconnect, .channelOpen ⟨1⟩, .stop, .cleanup]

example : (run step init throughAtOnce).map (fun s => s.stats) = some ⟨0, 1⟩ := by decide

example : (run step init stoppedAtConnect).map (fun s => (s.stats.value, s.openChannels)) = some (1, 0) := by
  decide

end Proxy

end RemoteX11.Client.Opens
