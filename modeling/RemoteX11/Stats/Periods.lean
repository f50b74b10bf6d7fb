/-
  The lifetime totals and the reporting periods of the statistics (`stats.rs`), with the reporters of the relay
  (`relay/mod.rs`) and of the connector (`connector.rs`).

  Tasks that record and one reporter run side by side, one access of an atomic a step. A report reads the totals,
  then the periods, and after it is logged every period is stored to zero, whatever was added to it since it was
  read. `step_ledger` says where everything that was recorded is; from it, `periods_add_up_iff` says when the periods
  that were shown, and the one that is running, add up to the total. The counters are numbers: none of them reaches
  2^64. The reports are logged at the info level, as by default: with it off, `summary` is not called and nothing is
  read before a reset. The time a report shows and its text are left out.
-/
import RemoteX11.Lib.Run
import RemoteX11.Lib.Calls

namespace RemoteX11.Stats.Periods

open RemoteX11.Lib

/-- `Counter`. -/
structure Counter where
  total : Nat
  period : Nat
  deriving DecidableEq, Repr

/-- The counters a report shows. -/
inductive Key where
  | bytesSent
  | bytesReceived
  | compressionSaved
  | compressionFrames
  | incrementalSaved
  | incrementalFrames
  | incrementalFallback
  | incrementalCompressionSaved
  | incrementalCompressionFrames
  deriving DecidableEq, Repr

/-- The counters in the order of `snapshot`, which is that of `reset_period`. -/
def Key.all : List Key :=
  [.bytesSent, .bytesReceived, .compressionSaved, .compressionFrames, .incrementalSaved, .incrementalFrames,
    .incrementalFallback, .incrementalCompressionSaved, .incrementalCompressionFrames]

/-! ## Recording -/

/-- One atomic access of a task that records. -/
inductive Access where
  | total (k : Key) (n : Nat)
  | period (k : Key) (n : Nat)
  deriving DecidableEq, Repr

/-- `Counter::add`. -/
def add (k : Key) (n : Nat) : List Access := [.total k n, .period k n]

/-- `Counter::incr`. -/
def incr (k : Key) : List Access := add k 1

/-- `Savings::record`. -/
def record (saved frames : Key) (n : Nat) : List Access := if n > 0 then add saved n ++ incr frames else []

/-- The calls that record. -/
inductive Recording where
  | addBytesSent (n : Nat)
  | addBytesReceived (n : Nat)
  | addCompressionSaved (saved : Nat)
  | addIncrementalSaved (saved : Nat)
  | addIncrementalFullFallback
  | addIncrementalCompressionSaved (saved : Nat)
  deriving DecidableEq, Repr

def Recording.accesses : Recording → List Access
  | addBytesSent n => add .bytesSent n
  | addBytesReceived n => add .bytesReceived n
  | addCompressionSaved saved => record .compressionSaved .compressionFrames saved
  | addIncrementalSaved saved => record .incrementalSaved .incrementalFrames saved
  | addIncrementalFullFallback => incr .incrementalFallback
  | addIncrementalCompressionSaved saved =>
    record .incrementalCompressionSaved .incrementalCompressionFrames saved

/-! ## Reporting -/

/-- What the reporter does next. -/
inductive Phase where
  | waiting
  /-- the three reads of `is_idle`, each only if the one before found nothing -/
  | checkActive
  | checkSent
  | checkReceived
  /-- `summary`: the connections, then the totals and the periods that are left to read -/
  | loadActive
  | totals (left : List Key)
  | periods (left : List Key)
  | log
  /-- `reset_period` -/
  | resets (left : List Key)
  deriving DecidableEq, Repr

/-- What a report shows. -/
structure Report where
  active : Nat
  totals : Key → Nat
  periods : Key → Nat

structure State where
  counters : Key → Counter
  /-- `x11_connections_active` -/
  active : Nat
  /-- the tasks that record, each with the accesses it has left -/
  writers : List (List Access)
  phase : Phase
  /-- what the reporter has read for its report -/
  reading : Report
  /-- the reports that were logged; history -/
  reports : List Report

inductive Action where
  /-- a task starts to record -/
  | start (r : Recording)
  /-- a task takes its next access -/
  | writer (i : Nat)
  /-- the reporter's timer; while a tick is worked on, the next one waits -/
  | tick
  | reporter
  /-- connections come and go -/
  | setActive (n : Nat)
  deriving DecidableEq, Repr

/-- The value of one key. -/
def assign {α : Type} (f : Key → α) (k : Key) (v : α) : Key → α := fun k' => if k' = k then v else f k'

@[simp] theorem assign_self {α : Type} (f : Key → α) (k : Key) (v : α) : assign f k v k = v := if_pos rfl

theorem assign_of_ne {α : Type} (f : Key → α) {k k' : Key} (v : α) (h : k' ≠ k) : assign f k v k' = f k' := if_neg h

/-- What an access does to the counters. -/
def Access.apply (counters : Key → Counter) : Access → Key → Counter
  | total k n => assign counters k { counters k with total := (counters k).total + n }
  | period k n => assign counters k { counters k with period := (counters k).period + n }

namespace State

def init : State := ⟨fun _ => ⟨0, 0⟩, 0, [], .waiting, ⟨0, fun _ => 0, fun _ => 0⟩, []⟩

/-- The reporter's next access, or its log. -/
def reporterStep (s : State) : Phase → Option State
  | .waiting => none
  | .checkActive => some { s with phase := if s.active = 0 then .checkSent else .loadActive }
  | .checkSent =>
    some { s with phase := if (s.counters .bytesSent).period = 0 then .checkReceived else .loadActive }
  | .checkReceived =>
    some { s with phase := if (s.counters .bytesReceived).period = 0 then .waiting else .loadActive }
  | .loadActive => some { s with phase := .totals Key.all, reading := { s.reading with active := s.active } }
  | .totals [] => some { s with phase := .periods Key.all }
  | .totals (k :: rest) =>
    some { s with
      phase := .totals rest
      reading := { s.reading with totals := assign s.reading.totals k (s.counters k).total } }
  | .periods [] => some { s with phase := .log }
  | .periods (k :: rest) =>
    some { s with
      phase := .periods rest
      reading := { s.reading with periods := assign s.reading.periods k (s.counters k).period } }
  | .log => some { s with phase := .resets Key.all, reports := s.reports ++ [s.reading] }
  | .resets [] => some { s with phase := .waiting }
  | .resets (k :: rest) =>
    some { s with phase := .resets rest, counters := assign s.counters k { s.counters k with period := 0 } }

/-- A step of the relay (`skipsIdle`), or of the connector. -/
def step (skipsIdle : Bool) (s : State) : Action → Option State
  | .start r => some { s with writers := s.writers ++ [r.accesses] }
  | .writer i =>
    match s.writers[i]? with
    | some (access :: rest) =>
      some { s with counters := access.apply s.counters, writers := s.writers.set i rest }
    | _ => none
  | .tick =>
    if s.phase = .waiting then some { s with phase := if skipsIdle then .checkActive else .loadActive } else none
  | .reporter => s.reporterStep s.phase
  | .setActive n => some { s with active := n }

end State

/-! ## The ledger -/

/-- What a task has still to add to a total, and to a period. -/
def Access.toTotal (k : Key) : Access → Nat
  | total k' n => if k' = k then n else 0
  | period _ _ => 0

def Access.toPeriod (k : Key) : Access → Nat
  | total _ _ => 0
  | period k' n => if k' = k then n else 0

namespace State

variable (k : Key)

def pendingTotals (s : State) : Nat := total (fun w => total (Access.toTotal k) w) s.writers

def pendingPeriods (s : State) : Nat := total (fun w => total (Access.toPeriod k) w) s.writers

/-- The sum of the periods that were shown. -/
def shown (s : State) : Nat := total (fun r => r.periods k) s.reports

/-- What the last report has shown and its reset has not taken yet. -/
def due (s : State) : Nat :=
  match s.phase with
  | .resets left => if k ∈ left then s.reading.periods k else 0
  | _ => 0

/-- What was recorded, or will have been. -/
def recorded (s : State) : Nat := (s.counters k).total + s.pendingTotals k

/-- What was shown, is in the running period, or will be. -/
def accounted (s : State) : Nat := s.shown k + (s.counters k).period + s.pendingPeriods k

end State

/-- The report under way has read the period of `k`, and its reset is still to come. -/
def State.Held (k : Key) (s : State) : Prop :=
  match s.phase with
  | .periods left => k ∉ left
  | .log => True
  | .resets left => k ∈ left
  | _ => False

/-- What the reporter has read of a period is not above it until the reset. -/
structure Sound (s : State) : Prop where
  nodup : ∀ left, s.phase = .resets left → left.Nodup
  reading : ∀ k, s.Held k → s.reading.periods k ≤ (s.counters k).period

theorem mem_all (k : Key) : k ∈ Key.all := by cases k <;> decide

/-- What a reset takes that no report has shown. -/
def State.dropped (k : Key) (s : State) : Action → Nat
  | .reporter =>
    match s.phase with
    | .resets (k' :: _) => if k' = k then (s.counters k).period - s.reading.periods k else 0
    | _ => 0
  | _ => 0

/-- A step that drops nothing: a reset of `k` finds the value its report has shown. -/
def State.Kept (k : Key) (s : State) (a : Action) : Prop :=
  a = .reporter → ∀ rest, s.phase = .resets (k :: rest) → (s.counters k).period = s.reading.periods k

theorem apply_total (counters : Key → Counter) (a : Access) (k : Key) :
    (a.apply counters k).total = (counters k).total + a.toTotal k := by
  cases a with
  | total k' n =>
    unfold Access.apply Access.toTotal assign
    by_cases h : k = k'
    · subst h
      simp
    · have h' : ¬ k' = k := fun heq => h heq.symm
      simp [h, h']
  | period k' n =>
    unfold Access.apply Access.toTotal assign
    by_cases h : k = k'
    · subst h
      simp
    · simp [h]

theorem apply_period (counters : Key → Counter) (a : Access) (k : Key) :
    (a.apply counters k).period = (counters k).period + a.toPeriod k := by
  cases a with
  | total k' n =>
    unfold Access.apply Access.toPeriod assign
    by_cases h : k = k'
    · subst h
      simp
    · simp [h]
  | period k' n =>
    unfold Access.apply Access.toPeriod assign
    by_cases h : k = k'
    · subst h
      simp
    · have h' : ¬ k' = k := fun heq => h heq.symm
      simp [h, h']

/-- A recording adds the same to the total and to the period. -/
theorem accesses_even (r : Recording) (k : Key) :
    Lib.total (Access.toTotal k) r.accesses = Lib.total (Access.toPeriod k) r.accesses := by
  have hadd : ∀ k' n, Lib.total (Access.toTotal k) (add k' n) = Lib.total (Access.toPeriod k) (add k' n) := by
    intro k' n
    simp [add, Access.toTotal, Access.toPeriod]
  have hrecord : ∀ saved frames n, Lib.total (Access.toTotal k) (record saved frames n) =
      Lib.total (Access.toPeriod k) (record saved frames n) := by
    intro saved frames n
    unfold record incr
    split
    · rw [total_append, total_append, hadd, hadd]
    · rfl
  cases r with
  | addBytesSent n => exact hadd _ _
  | addBytesReceived n => exact hadd _ _
  | addCompressionSaved n => exact hrecord _ _ _
  | addIncrementalSaved n => exact hrecord _ _ _
  | addIncrementalFullFallback => exact hadd _ _
  | addIncrementalCompressionSaved n => exact hrecord _ _ _

section

variable {b : Bool} {s t : State} {a : Action} {k : Key}

/-- A task's access moves its amount from what is pending to the counters. -/
theorem writer_ledger {i : Nat} {access : Access} {rest : List Access} (hi : s.writers[i]? = some (access :: rest)) :
    (access.apply s.counters k).total + Lib.total (fun w => Lib.total (Access.toTotal k) w) (s.writers.set i rest) =
        s.recorded k ∧
      (access.apply s.counters k).period +
          Lib.total (fun w => Lib.total (Access.toPeriod k) w) (s.writers.set i rest) =
        (s.counters k).period + s.pendingPeriods k := by
  have htotals := total_set (fun w => Lib.total (Access.toTotal k) w) rest hi
  have hperiods := total_set (fun w => Lib.total (Access.toPeriod k) w) rest hi
  rw [total_cons] at htotals hperiods
  unfold State.recorded State.pendingTotals State.pendingPeriods
  rw [apply_total, apply_period]
  omega

/-- The sums of a state that differs in the reporter only. -/
theorem sums_eq (hcounters : t.counters k = s.counters k) (hwriters : t.writers = s.writers)
    (hreports : t.reports = s.reports) : t.recorded k = s.recorded k ∧ t.accounted k = s.accounted k := by
  unfold State.recorded State.accounted State.shown State.pendingTotals State.pendingPeriods
  rw [hcounters, hwriters, hreports]
  exact ⟨rfl, rfl⟩

/-- A reset takes the period; what its report has shown of it was due. -/
theorem reset_ledger (h : Sound s) {k' : Key} {rest : List Key} (hphase : s.phase = .resets (k' :: rest))
    (hstep : s.reporterStep s.phase = some t) :
    t.recorded k = s.recorded k ∧ s.accounted k + t.due k = t.accounted k + s.due k + s.dropped k .reporter := by
  have hread := h.reading k
  obtain ⟨hfresh, _⟩ := List.nodup_cons.mp (h.nodup _ hphase)
  rw [hphase] at hstep
  obtain rfl := Option.some.inj hstep
  unfold State.Held at hread
  simp only [State.recorded, State.accounted, State.due, State.dropped, State.shown, State.pendingTotals,
    State.pendingPeriods, hphase] at hread ⊢
  by_cases hk : k' = k
  · subst hk
    have hle := hread List.mem_cons_self
    simp only [assign_self, if_neg hfresh, List.mem_cons_self, if_true]
    exact ⟨trivial, by omega⟩
  · have hk' : ¬ k = k' := fun heq => hk heq.symm
    simp only [assign_of_ne _ _ hk', List.mem_cons, hk', false_or, if_neg hk]
    exact ⟨trivial, rfl⟩

/-- Before it logs, the reporter reads only. -/
theorem reporter_reads (hlog : s.phase ≠ .log) (hresets : ∀ left, s.phase ≠ .resets left)
    (hstep : s.reporterStep s.phase = some t) :
    (t.counters = s.counters ∧ t.writers = s.writers ∧ t.reports = s.reports) ∧ ∀ left, t.phase ≠ .resets left := by
  cases hphase : s.phase with
  | waiting =>
    rw [hphase] at hstep
    cases hstep
  | log => exact absurd hphase hlog
  | resets left => exact absurd hphase (hresets left)
  | totals left =>
    cases left <;>
    · rw [hphase] at hstep
      obtain rfl := Option.some.inj hstep
      exact ⟨⟨rfl, rfl, rfl⟩, nofun⟩
  | periods left =>
    cases left <;>
    · rw [hphase] at hstep
      obtain rfl := Option.some.inj hstep
      exact ⟨⟨rfl, rfl, rfl⟩, nofun⟩
  | _ =>
    rw [hphase] at hstep
    obtain rfl := Option.some.inj hstep
    refine ⟨⟨rfl, rfl, rfl⟩, fun left => ?_⟩
    simp only
    try split
    all_goals nofun

theorem due_eq_zero (h : ∀ left, s.phase ≠ .resets left) : s.due k = 0 := by
  unfold State.due
  split
  · exact absurd ‹_› (h _)
  · rfl

/-- What the reporter's step does to the sums: only a reset takes something out of a period. -/
theorem reporter_ledger (h : Sound s) (hstep : s.reporterStep s.phase = some t) :
    t.recorded k = s.recorded k ∧ s.accounted k + t.due k = t.accounted k + s.due k + s.dropped k .reporter := by
  by_cases hlog : s.phase = .log
  · rw [hlog] at hstep
    obtain rfl := Option.some.inj hstep
    simp only [State.recorded, State.accounted, State.due, State.dropped, State.shown, State.pendingTotals,
      State.pendingPeriods, hlog, total_append, total_cons, total_nil, if_pos (mem_all k)]
    exact ⟨trivial, by omega⟩
  · by_cases hresets : ∃ left, s.phase = .resets left
    · obtain ⟨left, hphase⟩ := hresets
      cases left with
      | nil =>
        rw [hphase] at hstep
        obtain rfl := Option.some.inj hstep
        simp [State.recorded, State.accounted, State.due, State.dropped, State.shown, State.pendingTotals,
          State.pendingPeriods, hphase]
      | cons k' rest => exact reset_ledger h hphase hstep
    · have hno : ∀ left, s.phase ≠ .resets left := fun left heq => hresets ⟨left, heq⟩
      obtain ⟨⟨hcounters, hwriters, hreports⟩, hnext⟩ := reporter_reads hlog hno hstep
      obtain ⟨hrecorded, haccounted⟩ := sums_eq (k := k) (congrFun hcounters k) hwriters hreports
      have hdropped : s.dropped k .reporter = 0 := by
        unfold State.dropped
        simp only
        split
        · exact absurd ‹_› (hno _)
        · rfl
      rw [hrecorded, haccounted, due_eq_zero hnext, due_eq_zero hno, hdropped]
      exact ⟨rfl, rfl⟩

/-- Every step: what was recorded is accounted for, but for what a reset drops. -/
theorem step_ledger (h : Sound s) (hstep : s.step b a = some t) :
    t.recorded k + s.accounted k + t.due k = s.recorded k + t.accounted k + s.due k + s.dropped k a := by
  cases a with
  | reporter =>
    obtain ⟨hrecorded, hsums⟩ := reporter_ledger (k := k) h hstep
    omega
  | start r =>
    obtain rfl := Option.some.inj hstep
    have heven := accesses_even r k
    simp only [State.recorded, State.accounted, State.due, State.dropped, State.shown, State.pendingTotals,
      State.pendingPeriods, total_append, total_cons, total_nil]
    omega
  | writer i =>
    unfold State.step at hstep
    simp only at hstep
    split at hstep
    · rename_i access rest hi
      obtain rfl := Option.some.inj hstep
      obtain ⟨htotal, hperiod⟩ := writer_ledger (k := k) hi
      simp only [State.recorded, State.accounted, State.due, State.dropped, State.shown, State.pendingTotals,
        State.pendingPeriods] at *
      omega
    · cases hstep
  | tick =>
    unfold State.step at hstep
    simp only at hstep
    split at hstep
    · rename_i hwaiting
      obtain rfl := Option.some.inj hstep
      have hnow : s.due k = 0 := due_eq_zero fun left heq => by
        rw [hwaiting] at heq
        cases heq
      have hnext : ({ s with phase := if b then .checkActive else .loadActive } : State).due k = 0 :=
        due_eq_zero fun left heq => by cases b <;> cases heq
      obtain ⟨hrecorded, haccounted⟩ :=
        sums_eq (s := s) (t := { s with phase := if b then .checkActive else .loadActive }) (k := k) rfl rfl rfl
      rw [hrecorded, haccounted, hnow, hnext]
      rfl
    · cases hstep
  | setActive n =>
    obtain rfl := Option.some.inj hstep
    rfl

theorem held_of_reads (hlog : s.phase ≠ .log) (hresets : ∀ left, s.phase ≠ .resets left) (h : Sound s)
    (hstep : s.reporterStep s.phase = some t) (hheld : t.Held k) : t.reading.periods k ≤ (t.counters k).period := by
  have hread := h.reading k
  unfold State.Held at hread hheld
  cases hphase : s.phase with
  | waiting =>
    rw [hphase] at hstep
    cases hstep
  | log => exact absurd hphase hlog
  | resets left => exact absurd hphase (hresets left)
  | totals left =>
    cases left with
    | nil =>
      rw [hphase] at hstep
      obtain rfl := Option.some.inj hstep
      exact absurd (mem_all k) hheld
    | cons k' rest =>
      rw [hphase] at hstep
      obtain rfl := Option.some.inj hstep
      cases hheld
  | periods left =>
    rw [hphase] at hstep hread
    cases left with
    | nil =>
      obtain rfl := Option.some.inj hstep
      exact hread List.not_mem_nil
    | cons k' rest =>
      obtain rfl := Option.some.inj hstep
      by_cases hk : k = k'
      · subst hk
        exact Nat.le_of_eq (assign_self _ _ _)
      · show assign s.reading.periods k' _ k ≤ _
        rw [assign_of_ne _ _ hk]
        refine hread fun hmem => ?_
        obtain heq | hrest := List.mem_cons.mp hmem
        · exact hk heq
        · exact hheld hrest
  | loadActive =>
    rw [hphase] at hstep
    obtain rfl := Option.some.inj hstep
    cases hheld
  | checkActive =>
    rw [hphase] at hstep
    obtain rfl := Option.some.inj hstep
    by_cases hzero : s.active = 0 <;> simp [hzero] at hheld
  | checkSent =>
    rw [hphase] at hstep
    obtain rfl := Option.some.inj hstep
    by_cases hzero : (s.counters .bytesSent).period = 0 <;> simp [hzero] at hheld
  | checkReceived =>
    rw [hphase] at hstep
    obtain rfl := Option.some.inj hstep
    by_cases hzero : (s.counters .bytesReceived).period = 0 <;> simp [hzero] at hheld

theorem sound_init : Sound .init := by
  constructor
  · intro left h
    cases h
  · intro k h
    cases h

/-- A step that leaves the reporter alone, and takes nothing out of a period. -/
theorem Sound.of_le (h : Sound s) (hphase : t.phase = s.phase) (hreading : t.reading = s.reading)
    (hle : ∀ k, (s.counters k).period ≤ (t.counters k).period) : Sound t := by
  constructor
  · intro left hleft
    exact h.nodup left (hphase ▸ hleft)
  · intro k hheld
    have hheld' : s.Held k := by
      unfold State.Held at hheld ⊢
      rwa [hphase] at hheld
    rw [hreading]
    exact Nat.le_trans (h.reading k hheld') (hle k)

theorem reporter_sound (h : Sound s) (hstep : s.reporterStep s.phase = some t) : Sound t := by
  by_cases hlog : s.phase = .log
  · have hread := h.reading
    unfold State.Held at hread
    rw [hlog] at hstep hread
    obtain rfl := Option.some.inj hstep
    constructor
    · intro left hleft
      cases hleft
      decide
    · exact fun k _ => hread k trivial
  · by_cases hresets : ∃ left, s.phase = .resets left
    · obtain ⟨left, hphase⟩ := hresets
      have hread := h.reading
      have hnodup := h.nodup left hphase
      unfold State.Held at hread
      rw [hphase] at hstep hread
      cases left with
      | nil =>
        obtain rfl := Option.some.inj hstep
        exact ⟨fun left heq => (by cases heq), fun k hheld => (by cases hheld)⟩
      | cons k' rest =>
        obtain rfl := Option.some.inj hstep
        obtain ⟨hfresh, hrest⟩ := List.nodup_cons.mp hnodup
        constructor
        · intro left heq
          cases heq
          exact hrest
        · intro k hheld
          have hk : k ≠ k' := fun heq => hfresh (heq ▸ hheld)
          show s.reading.periods k ≤ (assign s.counters k' _ k).period
          rw [assign_of_ne _ _ hk]
          exact hread k (List.mem_cons_of_mem _ hheld)
    · have hno : ∀ left, s.phase ≠ .resets left := fun left heq => hresets ⟨left, heq⟩
      exact ⟨fun left heq => absurd heq ((reporter_reads hlog hno hstep).2 left),
        fun k hheld => held_of_reads hlog hno h hstep hheld⟩

theorem step_sound (h : Sound s) (hstep : s.step b a = some t) : Sound t := by
  cases a with
  | reporter => exact reporter_sound h hstep
  | start r =>
    obtain rfl := Option.some.inj hstep
    exact h.of_le rfl rfl fun _ => Nat.le_refl _
  | writer i =>
    unfold State.step at hstep
    simp only at hstep
    split at hstep
    · obtain rfl := Option.some.inj hstep
      refine h.of_le rfl rfl fun k => ?_
      rw [apply_period]
      exact Nat.le_add_right _ _
    · cases hstep
  | tick =>
    unfold State.step at hstep
    simp only at hstep
    split at hstep
    · obtain rfl := Option.some.inj hstep
      exact ⟨fun left heq => (by cases b <;> cases heq), fun k hheld => (by cases b <;> cases hheld)⟩
    · cases hstep
  | setActive n =>
    obtain rfl := Option.some.inj hstep
    exact h.of_le rfl rfl fun _ => Nat.le_refl _

/-- A step drops nothing if and only if it keeps what was shown and what is reset the same. -/
theorem dropped_eq_zero_iff (h : Sound s) : s.dropped k a = 0 ↔ s.Kept k a := by
  have hread := h.reading k
  unfold State.Held at hread
  cases a with
  | reporter =>
    unfold State.dropped State.Kept
    simp only
    split
    · rename_i k' rest hphase
      rw [hphase] at hread
      by_cases hk : k' = k
      · subst hk
        have hle := hread List.mem_cons_self
        rw [if_pos rfl]
        constructor
        · intro hzero _ _ _
          omega
        · intro hkept
          have := hkept trivial rest hphase
          omega
      · rw [if_neg hk]
        refine ⟨fun _ _ rest' heq => ?_, fun _ => rfl⟩
        rw [hphase] at heq
        cases heq
        exact absurd rfl hk
    · rename_i hother
      exact ⟨fun _ _ rest heq => absurd heq (hother k rest), fun _ => rfl⟩
  | _ => exact ⟨fun _ heq => (by cases heq), fun _ => rfl⟩

end

/-! ## Runs -/

/-- What the resets of a run take that no report has shown. -/
def droppedIn (b : Bool) (k : Key) : State → List Action → Nat
  | _, [] => 0
  | s, a :: as => s.dropped k a + (match s.step b a with
    | some t => droppedIn b k t as
    | none => 0)

theorem droppedIn_cons {b : Bool} {k : Key} {s t : State} {a : Action} (as : List Action)
    (hstep : s.step b a = some t) : droppedIn b k s (a :: as) = s.dropped k a + droppedIn b k t as := by
  rw [droppedIn, hstep]

/-- Every run: what was recorded is accounted for, but for what its resets drop. -/
theorem run_ledger {b : Bool} {s t : State} {as : List Action} {k : Key} (h : Sound s)
    (hrun : run (State.step b) s as = some t) :
    t.recorded k + s.accounted k + t.due k = s.recorded k + t.accounted k + s.due k + droppedIn b k s as := by
  induction as generalizing s with
  | nil =>
    obtain rfl := Option.some.inj hrun
    rfl
  | cons a as ih =>
    obtain ⟨u, hstep, hrest⟩ := run_cons_eq_some.mp hrun
    have hsteps := ih (step_sound h hstep) hrest
    have hledger := step_ledger (k := k) h hstep
    rw [droppedIn_cons as hstep]
    omega

/-- A run drops nothing if and only if none of its steps does. -/
theorem droppedIn_eq_zero_iff {b : Bool} {s t : State} {as : List Action} {k : Key} (h : Sound s)
    (hrun : run (State.step b) s as = some t) :
    droppedIn b k s as = 0 ↔ Meets (State.step b) (State.Kept k) s as := by
  induction as generalizing s with
  | nil => exact ⟨fun _ => trivial, fun _ => rfl⟩
  | cons a as ih =>
    obtain ⟨u, hstep, hrest⟩ := run_cons_eq_some.mp hrun
    rw [droppedIn_cons as hstep, meets_cons hstep, ← dropped_eq_zero_iff h, ← ih (step_sound h hstep) hrest,
      Nat.add_eq_zero_iff]

/-- The periods that were shown, the one that is running and what the resets took unseen add up to what was recorded;
    so the periods alone do if and only if every reset of the run found the value that its report had shown. -/
theorem periods_add_up_iff {b : Bool} {s : State} {as : List Action} (k : Key)
    (hrun : run (State.step b) .init as = some s) (hwaiting : s.phase = .waiting) :
    s.recorded k = s.accounted k + droppedIn b k .init as ∧
      (s.recorded k = s.accounted k ↔ Meets (State.step b) (State.Kept k) .init as) := by
  have hdue : s.due k = 0 := due_eq_zero fun left heq => by
    rw [hwaiting] at heq
    cases heq
  have hledger := run_ledger (k := k) sound_init hrun
  have hrecorded : State.init.recorded k = 0 := rfl
  have haccounted : State.init.accounted k = 0 := rfl
  have hstart : State.init.due k = 0 := rfl
  refine ⟨by omega, ?_⟩
  rw [← droppedIn_eq_zero_iff sound_init hrun]
  omega

/-- A relay that reports, and 5 more bytes that go out between the reading of their period and its reset. -/
def lateBytes : List Action :=
  [.start (.addBytesSent 100), .writer 0, .writer 0, .tick] ++ List.replicate 21 .reporter ++
    [.start (.addBytesSent 5), .writer 1, .writer 1] ++ List.replicate 13 .reporter

/-- The 5 bytes are in the total and in no period. -/
theorem late_bytes_in_no_period : ∃ s, run (State.step true) .init lateBytes = some s ∧
    s.recorded .bytesSent = 105 ∧ s.accounted .bytesSent = 100 ∧
      ¬ Meets (State.step true) (State.Kept .bytesSent) .init lateBytes := by
  have hend : (run (State.step true) .init lateBytes).map
      (fun s => (s.phase, s.recorded .bytesSent, s.accounted .bytesSent)) = some (.waiting, 105, 100) := by
    decide +kernel
  obtain ⟨s, hrun, hs⟩ := Option.map_eq_some_iff.mp hend
  obtain ⟨hphase, hsums⟩ := Prod.mk.inj hs
  obtain ⟨hrecorded, haccounted⟩ := Prod.mk.inj hsums
  refine ⟨s, hrun, hrecorded, haccounted, fun hmeets => ?_⟩
  have heq := (periods_add_up_iff .bytesSent hrun hphase).2.mpr hmeets
  omega

end RemoteX11.Stats.Periods
