/-
  Concurrent calls on one gauge (`flow.rs`, `FlowMeter::charge` and `FlowMeter::discharge`).

  The counter and the latch are two atomics, so a call is cut at its accesses: a charge adds and, over
  `high`, tries to latch; a discharge subtracts, loads the latch and, at `low`, tries to open it. Any
  number of calls may be in progress. An edge is reported by the call whose compare-exchange succeeds;
  `edges` has them in the order of these exchanges.

  The edges alternate whatever the interleaving (`edges_alternate`), and calls that do not overlap follow
  the hysteresis automaton (`hysteresis_of_sequential`). A latch that is taken after the backlog has
  drained stays: `drained_is_open` has the condition, and `uncovered_latch_strands` shows that a latch
  without it can be the last word.
-/
import RemoteX11.Flow.Meter
import RemoteX11.Lib.Calls
import RemoteX11.Lib.Keyed
import RemoteX11.Lib.Run
import Mathlib.Data.List.Induction

namespace RemoteX11.Flow

open RemoteX11.Lib RemoteX11.Protocol

/-! ## The model -/

/-- The values of a `usize`. -/
def usizeRange : Nat := 2 ^ 64

/-- `fetch_add` wraps around. -/
def FlowMeter.fetchAdd (m : FlowMeter) (n : Nat) : FlowMeter :=
  { m with pending := (m.pending + n) % usizeRange }

inductive MeterCall where
  | charge (n : Nat)
  | discharge (n : Nat)
  deriving DecidableEq, Repr

/-- The bytes that a charge adds. -/
def MeterCall.charged : MeterCall → Nat
  | .charge n => n
  | .discharge _ => 0

/-- What a call is about to do. -/
inductive MeterPhase where
  /-- update `pending` -/
  | counting
  /-- a charge reached `high`: compare-exchange to latched -/
  | latching
  /-- a discharge left `after` bytes: load the latch -/
  | loading (after : Nat)
  /-- the latch was set: compare-exchange to open -/
  | unlatching
  /-- returned, with an edge or without -/
  | done (edge : Bool)
  deriving DecidableEq, Repr

structure MeterTask where
  call : MeterCall
  phase : MeterPhase
  deriving DecidableEq, Repr

structure Race where
  meter : FlowMeter
  tasks : List MeterTask
  edges : List FlowControlAction
  deriving DecidableEq, Repr

inductive RaceAction where
  | start (call : MeterCall)
  /-- a call makes its next access -/
  | advance (i : Nat)
  deriving DecidableEq, Repr

namespace MeterTask

def isDone (t : MeterTask) : Bool :=
  match t.phase with
  | .done _ => true
  | _ => false

/-- Bytes that the call has yet to add. -/
def toAdd (t : MeterTask) : Nat :=
  match t.phase with
  | .counting => t.call.charged
  | _ => 0

/-- The call is a discharge that will look at the latch, or open it, for a drained backlog. -/
def willLook (low : Nat) (t : MeterTask) : Bool :=
  match t.phase, t.call with
  | .counting, .discharge _ => true
  | .loading after, _ => after ≤ low
  | .unlatching, _ => true
  | _, _ => false

end MeterTask

namespace Race

def setTask (s : Race) (i : Nat) (t : MeterTask) (phase : MeterPhase) : Race :=
  { s with tasks := s.tasks.set i { t with phase := phase } }

/-- The edge of a compare-exchange that succeeded. -/
def report (s : Race) (ok : Bool) (action : FlowControlAction) : Race :=
  { s with edges := s.edges ++ if ok then [action] else [] }

def advance (s : Race) (i : Nat) (t : MeterTask) : Option Race :=
  match t.phase with
  | .counting =>
    match t.call with
    | .charge n =>
      let meter := s.meter.fetchAdd n
      some ({ s with meter := meter }.setTask i t
        (if meter.high ≤ meter.pending then .latching else .done false))
    | .discharge n =>
      some ({ s with meter := s.meter.sub n }.setTask i t (.loading (s.meter.pending - n)))
  | .latching =>
    let (ok, meter) := s.meter.latch
    some (({ s with meter := meter }.report ok .pause).setTask i t (.done ok))
  | .loading after =>
    some (s.setTask i t
      (if s.meter.latched ∧ after ≤ s.meter.low then .unlatching else .done false))
  | .unlatching =>
    let (ok, meter) := s.meter.unlatch
    some (({ s with meter := meter }.report ok .resume).setTask i t (.done ok))
  | .done _ => none

def step (s : Race) : RaceAction → Option Race
  | .start call => some { s with tasks := s.tasks ++ [⟨call, .counting⟩] }
  | .advance i => s.tasks[i]?.bind fun t => s.advance i t

def init (high low : Nat) : Race where
  meter := .new high low
  tasks := []
  edges := []

/-- No call is in progress. -/
def Quiescent (s : Race) : Prop := ∀ t ∈ s.tasks, t.isDone = true

instance (s : Race) : Decidable s.Quiescent :=
  inferInstanceAs (Decidable (∀ t ∈ s.tasks, t.isDone = true))

/-! ## What an access does -/

variable {s t : Race} {i : Nat} {task : MeterTask}

/-- The accesses of the two calls. -/
inductive Access (s : Race) (i : Nat) (task : MeterTask) : Race → Prop
  | add {n : Nat} (hcall : task = ⟨.charge n, .counting⟩)
      (phase : MeterPhase)
      (hphase : phase = if s.meter.high ≤ (s.meter.pending + n) % usizeRange then .latching
        else .done false) :
    Access s i task ({ s with meter := s.meter.fetchAdd n }.setTask i task phase)
  | sub {n : Nat} (hcall : task = ⟨.discharge n, .counting⟩) :
    Access s i task ({ s with meter := s.meter.sub n }.setTask i task (.loading (s.meter.pending - n)))
  | latch (hphase : task.phase = .latching) (hopen : s.meter.latched = false) :
    Access s i task ({ s with
      meter := { s.meter with latched := true }
      edges := s.edges ++ [FlowControlAction.pause] }.setTask i task (.done true))
  | latchLate (hphase : task.phase = .latching) (hlatched : s.meter.latched = true) :
    Access s i task (s.setTask i task (.done false))
  | look {after : Nat} (hphase : task.phase = .loading after) (hlatched : s.meter.latched = true)
      (hlow : after ≤ s.meter.low) : Access s i task (s.setTask i task .unlatching)
  | pass {after : Nat} (hphase : task.phase = .loading after)
      (hno : ¬ (s.meter.latched = true ∧ after ≤ s.meter.low)) :
    Access s i task (s.setTask i task (.done false))
  | unlatch (hphase : task.phase = .unlatching) (hlatched : s.meter.latched = true) :
    Access s i task ({ s with
      meter := { s.meter with latched := false }
      edges := s.edges ++ [FlowControlAction.resume] }.setTask i task (.done true))
  | unlatchLate (hphase : task.phase = .unlatching) (hopen : s.meter.latched = false) :
    Access s i task (s.setTask i task (.done false))

theorem latch_of_latched {m : FlowMeter} (h : m.latched = true) : m.latch = (false, m) := by
  obtain ⟨pending, high, low, latched⟩ := m
  cases h
  rfl

theorem unlatch_of_open {m : FlowMeter} (h : m.latched = false) : m.unlatch = (false, m) := by
  obtain ⟨pending, high, low, latched⟩ := m
  cases h
  rfl

theorem report_false (s : Race) (action : FlowControlAction) : s.report false action = s := by
  simp [report]

theorem advance_access (h : s.advance i task = some t) : Access s i task t := by
  obtain ⟨call, phase⟩ := task
  cases phase with
  | counting =>
    cases call with
    | charge n =>
      obtain rfl := Option.some.inj h
      exact .add rfl _ rfl
    | discharge n =>
      obtain rfl := Option.some.inj h
      exact .sub rfl
  | latching =>
    rcases hlatched : s.meter.latched with _ | _
    · have hlatch : s.meter.latch = (true, { s.meter with latched := true }) := by
        simp [FlowMeter.latch, hlatched]
      simp only [advance, hlatch] at h
      obtain rfl := Option.some.inj h
      exact .latch rfl hlatched
    · simp only [advance, latch_of_latched hlatched, report_false] at h
      obtain rfl := Option.some.inj h
      exact .latchLate rfl hlatched
  | loading after =>
    obtain rfl := Option.some.inj h
    split
    · rename_i hlook
      exact .look rfl hlook.1 hlook.2
    · exact .pass rfl ‹_›
  | unlatching =>
    rcases hlatched : s.meter.latched with _ | _
    · simp only [advance, unlatch_of_open hlatched, report_false] at h
      obtain rfl := Option.some.inj h
      exact .unlatchLate rfl hlatched
    · have hunlatch : s.meter.unlatch = (true, { s.meter with latched := false }) := by
        simp [FlowMeter.unlatch, hlatched]
      simp only [advance, hunlatch] at h
      obtain rfl := Option.some.inj h
      exact .unlatch rfl hlatched
  | done edge => contradiction

theorem step_access (h : s.step (.advance i) = some t) :
    ∃ task, s.tasks[i]? = some task ∧ Access s i task t := by
  obtain ⟨task, hi, h⟩ := Option.bind_eq_some_iff.mp h
  exact ⟨task, hi, advance_access h⟩

/-! ## The edges alternate -/

/-- `Pause`, `Resume`, `Pause` and so on. -/
def alternating : Nat → List FlowControlAction
  | 0 => []
  | k + 1 => alternating k ++ [if k % 2 = 0 then .pause else .resume]

theorem alternating_length (k : Nat) : (alternating k).length = k := by
  induction k with
  | zero => rfl
  | succ k ih => rw [alternating, List.length_append, ih, List.length_singleton]

theorem alternating_get (k : Nat) : ∀ i < k,
    (alternating k)[i]? = some (if i % 2 = 0 then .pause else .resume) := by
  induction k with
  | zero => exact fun i hi => absurd hi (Nat.not_lt_zero i)
  | succ k ih =>
    intro i hi
    by_cases hik : i < k
    · rw [alternating, List.getElem?_append_left (by rw [alternating_length]; exact hik), ih i hik]
    · obtain rfl : i = k := by omega
      rw [alternating, List.getElem?_append_right (by rw [alternating_length]), alternating_length,
        Nat.sub_self]
      rfl

theorem alternating_count (k : Nat) : (alternating k).count .pause = (k + 1) / 2 ∧
    (alternating k).count .resume = k / 2 := by
  induction k with
  | zero => exact ⟨rfl, rfl⟩
  | succ k ih =>
    rw [alternating, List.count_append, List.count_append, ih.1, ih.2]
    rcases Nat.mod_two_eq_zero_or_one k with hk | hk
    · rw [if_pos hk]
      constructor
      · show _ + 1 = _
        omega
      · show _ + 0 = _
        omega
    · rw [if_neg (by omega)]
      constructor
      · show _ + 0 = _
        omega
      · show _ + 1 = _
        omega

/-- The edges so far alternate, and the latch says which comes next. -/
def Alternates (s : Race) : Prop :=
  ∃ k, s.edges = alternating k ∧ s.meter.latched = decide (k % 2 = 1)

theorem Alternates.same (h : s.Alternates) (hedges : t.edges = s.edges)
    (hlatched : t.meter.latched = s.meter.latched) : t.Alternates := by
  obtain ⟨k, hk, hl⟩ := h
  exact ⟨k, hedges.trans hk, hlatched.trans hl⟩

theorem Access.alternates (h : Access s i task t) (hs : s.Alternates) : t.Alternates := by
  cases h with
  | add | sub | latchLate | look | pass | unlatchLate => exact hs.same rfl rfl
  | latch hphase hopen =>
    obtain ⟨k, hk, hl⟩ := hs
    rw [hopen, eq_comm, decide_eq_false_iff_not] at hl
    refine ⟨k + 1, ?_, ?_⟩
    · show s.edges ++ _ = _
      rw [hk, alternating, if_pos (by omega)]
    · show true = _
      rw [eq_comm, decide_eq_true_iff]
      omega
  | unlatch hphase hlatched =>
    obtain ⟨k, hk, hl⟩ := hs
    rw [hlatched, eq_comm, decide_eq_true_iff] at hl
    refine ⟨k + 1, ?_, ?_⟩
    · show s.edges ++ _ = _
      rw [hk, alternating, if_neg (by omega)]
    · show false = _
      rw [eq_comm, decide_eq_false_iff_not]
      omega

theorem step_alternates {a : RaceAction} (hs : s.Alternates) (h : s.step a = some t) :
    t.Alternates := by
  cases a with
  | start call =>
    obtain rfl := Option.some.inj h
    exact hs.same rfl rfl
  | advance i =>
    obtain ⟨task, -, haccess⟩ := step_access h
    exact haccess.alternates hs

theorem edges_alternate {high low : Nat} {as : List RaceAction}
    (hrun : run step (init high low) as = some s) : s.Alternates :=
  run_inv_all (fun _ _ _ hs h => step_alternates hs h) ⟨0, rfl, rfl⟩ hrun

/-! ## Calls one after the other -/

/-- The hysteresis that a gauge stands for. -/
structure Hysteresis where
  count : Nat
  set : Bool
  deriving DecidableEq, Repr

def Hysteresis.call (high low : Nat) (h : Hysteresis) : MeterCall → Hysteresis
  | .charge n => ⟨h.count + n, h.set || high ≤ h.count + n⟩
  | .discharge n => ⟨h.count - n, h.set && low < h.count - n⟩

/-- After these calls. -/
def hysteresis (high low : Nat) (calls : List MeterCall) : Hysteresis :=
  calls.foldl (Hysteresis.call high low) ⟨0, false⟩

/-- A call starts when no other is in progress, and the charges do not overflow a `usize`. -/
def Sequential (s : Race) : RaceAction → Prop
  | .start call =>
    s.Quiescent ∧ total (fun t => t.call.charged) s.tasks + call.charged < usizeRange
  | .advance _ => True

instance (s : Race) : (a : RaceAction) → Decidable (Sequential s a)
  | .start _ => inferInstanceAs (Decidable (_ ∧ _))
  | .advance _ => isTrue trivial

theorem hysteresis_snoc (high low : Nat) (calls : List MeterCall) (call : MeterCall) :
    hysteresis high low (calls ++ [call]) = (hysteresis high low calls).call high low call := by
  rw [hysteresis, List.foldl_append]
  rfl

/-- What the gauge and the automaton have in common between two calls. -/
structure Follows (m : FlowMeter) (calls : List MeterCall) : Prop where
  pending : m.pending = (hysteresis m.high m.low calls).count
  latched : m.latched = (hysteresis m.high m.low calls).set
  below : m.latched = false → m.pending < m.high
  above : m.latched = true → m.low < m.pending

/-- A call in progress, the others being over. -/
inductive Mid (m : FlowMeter) (calls : List MeterCall) : MeterTask → Prop
  | before {call : MeterCall} (h : Follows m calls) : Mid m calls ⟨call, .counting⟩
  | risen {n : Nat} (hpending : m.pending = (hysteresis m.high m.low calls).count + n)
      (hlatched : m.latched = (hysteresis m.high m.low calls).set) (hhigh : m.high ≤ m.pending) :
    Mid m calls ⟨.charge n, .latching⟩
  | drained {n : Nat} (hpending : m.pending = (hysteresis m.high m.low calls).count - n)
      (hlatched : m.latched = (hysteresis m.high m.low calls).set)
      (hbelow : m.latched = false → m.pending < m.high) :
    Mid m calls ⟨.discharge n, .loading m.pending⟩
  | opening {n : Nat} (hpending : m.pending = (hysteresis m.high m.low calls).count - n)
      (hlatched : m.latched = true) (hset : (hysteresis m.high m.low calls).set = true)
      (hlow : m.pending ≤ m.low) : Mid m calls ⟨.discharge n, .unlatching⟩

def calls (s : Race) : List MeterCall := s.tasks.map MeterTask.call

structure SeqInv (s : Race) : Prop where
  band : s.meter.low < s.meter.high
  room : total (fun t => t.call.charged) s.tasks < usizeRange
  progress : s.Quiescent ∧ Follows s.meter s.calls ∨ ∃ pre t, s.tasks = pre ++ [t] ∧
    (∀ x ∈ pre, x.isDone = true) ∧ Mid s.meter (pre.map MeterTask.call) t

theorem hysteresis_count_le (high low : Nat) (tasks : List MeterTask) :
    (hysteresis high low (tasks.map MeterTask.call)).count ≤
      total (fun t => t.call.charged) tasks := by
  induction tasks using List.reverseRecOn with
  | nil => exact Nat.zero_le _
  | append_singleton tasks t ih =>
    rw [List.map_append, List.map_singleton, hysteresis_snoc, total_append]
    cases hcall : t.call with
    | charge n => simpa [Hysteresis.call, MeterCall.charged, hcall] using ih
    | discharge n => exact (Nat.sub_le _ n).trans (ih.trans (Nat.le_add_right _ _))

theorem Mid.not_done {m : FlowMeter} {calls : List MeterCall} (h : Mid m calls task) :
    task.isDone = false := by
  cases h <;> rfl

theorem Access.not_done (h : Access s i task t) : task.isDone = false := by
  cases h with
  | add hcall | sub hcall => rw [hcall]; rfl
  | latch hphase | latchLate hphase | look hphase | pass hphase | unlatch hphase | unlatchLate hphase =>
    rw [MeterTask.isDone, hphase]

/-- The gauge between two calls, after a charge. -/
theorem follows_charge {m : FlowMeter} {calls : List MeterCall} {n : Nat}
    (hpending : m.pending = (hysteresis m.high m.low calls).count + n)
    (hlatched : m.latched =
      ((hysteresis m.high m.low calls).set || decide (m.high ≤ m.pending)))
    (habove : m.latched = true → m.low < m.pending) : Follows m (calls ++ [.charge n]) := by
  refine ⟨?_, ?_, fun hopen => ?_, habove⟩
  · rw [hysteresis_snoc, hpending]
    rfl
  · rw [hysteresis_snoc, hlatched, hpending]
    rfl
  · rw [hlatched, Bool.or_eq_false_iff, decide_eq_false_iff_not] at hopen
    omega

/-- The gauge between two calls, after a discharge. -/
theorem follows_discharge {m : FlowMeter} {calls : List MeterCall} {n : Nat}
    (hpending : m.pending = (hysteresis m.high m.low calls).count - n)
    (hlatched : m.latched =
      ((hysteresis m.high m.low calls).set && decide (m.low < m.pending)))
    (hbelow : m.latched = false → m.pending < m.high) : Follows m (calls ++ [.discharge n]) := by
  refine ⟨?_, ?_, hbelow, fun hset => ?_⟩
  · rw [hysteresis_snoc, hpending]
    rfl
  · rw [hysteresis_snoc, hlatched, hpending]
    rfl
  · rw [hlatched, Bool.and_eq_true, decide_eq_true_iff] at hset
    exact hset.2

/-- An access of the only call in progress brings it one phase further, or to its end. -/
theorem Access.mid {calls : List MeterCall} (h : Access s i task t) (hmid : Mid s.meter calls task)
    (hband : s.meter.low < s.meter.high)
    (hroom : (hysteresis s.meter.high s.meter.low calls).count + task.call.charged < usizeRange) :
    ∃ phase, t.tasks = s.tasks.set i { task with phase := phase } ∧
      t.meter.low = s.meter.low ∧ t.meter.high = s.meter.high ∧
      (Mid t.meter calls { task with phase := phase } ∨
        (∃ edge, phase = .done edge) ∧ Follows t.meter (calls ++ [task.call])) := by
  cases h with
  | @add n hcall phase hphase =>
    subst hcall
    refine ⟨phase, rfl, rfl, rfl, ?_⟩
    cases hmid with
    | before hf =>
      have hsum : (s.meter.pending + n) % usizeRange = s.meter.pending + n := by
        refine Nat.mod_eq_of_lt ?_
        rw [hf.pending]
        exact hroom
      rw [hsum] at hphase
      have hpending : (s.meter.fetchAdd n).pending =
          (hysteresis s.meter.high s.meter.low calls).count + n := by
        rw [FlowMeter.fetchAdd, hsum, hf.pending]
      rw [hf.pending] at hphase
      split at hphase <;> subst hphase
      · rename_i hhigh
        exact .inl (.risen hpending hf.latched (hpending ▸ hhigh))
      · rename_i hhigh
        refine .inr ⟨⟨false, rfl⟩, ?_⟩
        show Follows (s.meter.fetchAdd n) _
        refine follows_charge hpending ?_ fun hset => ?_
        · rw [hpending]
          show s.meter.latched = (_ || decide (s.meter.high ≤ _))
          rw [decide_eq_false hhigh, Bool.or_false]
          exact hf.latched
        · have := hf.above hset
          rw [hf.pending] at this
          rw [hpending]
          show s.meter.low < _
          omega
  | @sub n hcall =>
    subst hcall
    refine ⟨_, rfl, rfl, rfl, .inl ?_⟩
    cases hmid with
    | before hf =>
      refine .drained (m := s.meter.sub n) ?_ hf.latched fun hopen => ?_
      · show s.meter.pending - n = _ - n
        rw [hf.pending]
        rfl
      · have := hf.below hopen
        show s.meter.pending - n < s.meter.high
        omega
  | latch hphase hopen =>
    refine ⟨_, rfl, rfl, rfl, .inr ⟨⟨true, rfl⟩, ?_⟩⟩
    cases hmid with
    | risen hpending hlatched hhigh =>
      refine follows_charge hpending ?_ fun _ => ?_
      · show true = (_ || decide (s.meter.high ≤ s.meter.pending))
        rw [decide_eq_true hhigh, Bool.or_true]
      · show s.meter.low < s.meter.pending
        omega
    | before | drained | opening => contradiction
  | latchLate hphase hl =>
    refine ⟨_, rfl, rfl, rfl, .inr ⟨⟨false, rfl⟩, ?_⟩⟩
    show Follows s.meter _
    cases hmid with
    | risen hpending hlatched hhigh =>
      refine follows_charge hpending ?_ fun _ => ?_
      · show s.meter.latched = (_ || decide (s.meter.high ≤ s.meter.pending))
        rw [decide_eq_true hhigh, Bool.or_true]
        exact hl
      · show s.meter.low < s.meter.pending
        omega
    | before | drained | opening => contradiction
  | @look after hphase hl hlow =>
    refine ⟨_, rfl, rfl, rfl, .inl ?_⟩
    cases hmid with
    | drained hpending hlatched hbelow =>
      obtain rfl := MeterPhase.loading.inj hphase
      exact .opening hpending hl (hlatched.symm.trans hl) hlow
    | before | risen | opening => contradiction
  | @pass after hphase hno =>
    refine ⟨_, rfl, rfl, rfl, .inr ⟨⟨false, rfl⟩, ?_⟩⟩
    show Follows s.meter _
    cases hmid with
    | drained hpending hlatched hbelow =>
      obtain rfl := MeterPhase.loading.inj hphase
      refine follows_discharge hpending ?_ hbelow
      show s.meter.latched = (_ && decide (s.meter.low < s.meter.pending))
      rcases hl : s.meter.latched with _ | _
      · rw [← hlatched, hl, Bool.false_and]
      · have hlow : s.meter.low < s.meter.pending := by
          by_contra hle
          exact hno ⟨hl, Nat.le_of_not_lt hle⟩
        rw [← hlatched, hl, decide_eq_true hlow, Bool.and_true]
    | before | risen | opening => contradiction
  | unlatch hphase hl =>
    refine ⟨_, rfl, rfl, rfl, .inr ⟨⟨true, rfl⟩, ?_⟩⟩
    cases hmid with
    | opening hpending hlatched hset hlow =>
      refine follows_discharge hpending ?_ fun _ => ?_
      · show false = (_ && decide (s.meter.low < s.meter.pending))
        rw [decide_eq_false (Nat.not_lt.mpr hlow), Bool.and_false]
      · show s.meter.pending < s.meter.high
        omega
    | before | risen | drained => contradiction
  | unlatchLate hphase hopen =>
    cases hmid with
    | opening hpending hlatched =>
      rw [hlatched] at hopen
      contradiction
    | before | risen | drained => contradiction

theorem total_charged_set {tasks : List MeterTask} {phase : MeterPhase} (hi : tasks[i]? = some task) :
    total (fun t => t.call.charged) (tasks.set i { task with phase := phase }) =
      total (fun t => t.call.charged) tasks := by
  have := total_set (fun t => t.call.charged) { task with phase := phase } hi
  simp only at this
  omega

/-- Who moves is the last call, when the ones before it are over. -/
theorem last_of_get {pre : List MeterTask} {last : MeterTask} (hpre : ∀ x ∈ pre, x.isDone = true)
    (hi : (pre ++ [last])[i]? = some task) (hno : task.isDone = false) :
    i = pre.length ∧ task = last := by
  rcases get_snoc hi with hold | ⟨rfl, rfl⟩
  · rw [hpre task (List.mem_of_getElem? hold)] at hno
    contradiction
  · exact ⟨rfl, rfl⟩

theorem step_seqInv {a : RaceAction} (hs : s.SeqInv) (hg : Sequential s a) (h : s.step a = some t) :
    t.SeqInv := by
  cases a with
  | start call =>
    obtain ⟨hquiet, hroom⟩ := hg
    obtain rfl := Option.some.inj h
    refine ⟨hs.band, ?_, .inr ⟨s.tasks, _, rfl, hquiet, .before ?_⟩⟩
    · simpa using hroom
    · rcases hs.progress with ⟨-, hf⟩ | ⟨pre, last, htasks, -, hmid⟩
      · exact hf
      · have hlast := hquiet last (by rw [htasks]; simp)
        rw [hmid.not_done] at hlast
        contradiction
  | advance i =>
    obtain ⟨task, hi, haccess⟩ := step_access h
    rcases hs.progress with ⟨hquiet, -⟩ | ⟨pre, last, htasks, hpre, hmid⟩
    · have hdone := hquiet task (List.mem_of_getElem? hi)
      rw [haccess.not_done] at hdone
      contradiction
    · obtain ⟨rfl, rfl⟩ := last_of_get hpre (htasks ▸ hi) haccess.not_done
      have hroom : (hysteresis s.meter.high s.meter.low (pre.map MeterTask.call)).count +
          task.call.charged < usizeRange := by
        have hle := hysteresis_count_le s.meter.high s.meter.low pre
        have htotal := hs.room
        rw [htasks, total_append, total_cons, total_nil] at htotal
        omega
      obtain ⟨phase, htasks', hlow, hhigh, hnext⟩ := haccess.mid hmid hs.band hroom
      refine ⟨by rw [hlow, hhigh]; exact hs.band, ?_, ?_⟩
      · rw [htasks', total_charged_set hi]
        exact hs.room
      · have hset : t.tasks = pre ++ [{ task with phase := phase }] := by
          rw [htasks', htasks, List.set_append_right _ _ (le_refl _), Nat.sub_self]
          rfl
        rcases hnext with hmid' | ⟨⟨edge, rfl⟩, hf⟩
        · exact .inr ⟨pre, _, hset, hpre, hmid'⟩
        · refine .inl ⟨?_, ?_⟩
          · intro x hx
            rw [hset] at hx
            rcases List.mem_append.mp hx with hx | hx
            · exact hpre x hx
            · rw [List.mem_singleton.mp hx]
              rfl
          · rw [calls, hset, List.map_append]
            exact hf

/-- Between two calls of a run without overlaps the gauge follows the automaton. -/
theorem hysteresis_of_sequential {high low : Nat} {as : List RaceAction}
    (hband : min low high < max high 1) (hmeets : Meets step Sequential (init high low) as)
    (hrun : run step (init high low) as = some s) (hquiet : s.Quiescent) :
    Follows s.meter s.calls := by
  have hinit : (init high low).SeqInv := by
    refine ⟨hband, Nat.two_pow_pos 64, .inl ⟨fun _ h => absurd h List.not_mem_nil, rfl, rfl, fun _ => ?_, nofun⟩⟩
    show 0 < max high 1
    omega
  have hinv : s.SeqInv := run_inv (fun _ _ _ hs hg h => step_seqInv hs hg h) hinit hmeets hrun
  rcases hinv.progress with ⟨-, hf⟩ | ⟨pre, last, htasks, -, hmid⟩
  · exact hf
  · have hlast := hquiet last (by rw [htasks]; simp)
    rw [hmid.not_done] at hlast
    contradiction

theorem step_band {a : RaceAction} (h : s.step a = some t) :
    t.meter.high = s.meter.high ∧ t.meter.low = s.meter.low := by
  cases a with
  | start call =>
    obtain rfl := Option.some.inj h
    exact ⟨rfl, rfl⟩
  | advance i =>
    obtain ⟨task, -, haccess⟩ := step_access h
    cases haccess <;> exact ⟨rfl, rfl⟩

/-- The watermarks are those that `new` clamped. -/
theorem run_band {high low : Nat} {as : List RaceAction}
    (hrun : run step (init high low) as = some s) :
    s.meter.high = max high 1 ∧ s.meter.low = min low high := by
  refine run_inv_all (I := fun s => s.meter.high = max high 1 ∧ s.meter.low = min low high)
    (fun _ _ _ hs h => ?_) ⟨rfl, rfl⟩ hrun
  rw [(step_band h).1, (step_band h).2]
  exact hs

/-- **The gauge as an automaton.** For every pair of watermarks: in every interleaving the edges, in the
    order of their exchanges, are `Pause`, `Resume`, `Pause` and so on, and the gauge is latched exactly
    when one more `Pause` than `Resume` was reported. When calls do not overlap, the charges fit a
    `usize` and the effective `low` is below the effective `high`, then after each call the gauge has the
    count and the latch of the hysteresis automaton, and lies below `high` or above `low`. -/
theorem meter_edges_and_hysteresis (high low : Nat) (as : List RaceAction) (s : Race)
    (hrun : run step (init high low) as = some s) :
    ((∀ (i : Nat) edge, s.edges[i]? = some edge → edge = if i % 2 = 0 then .pause else .resume) ∧
      (s.meter.latched = true ↔ s.edges.count .pause = s.edges.count .resume + 1)) ∧
    (min low high < max high 1 → Meets step Sequential (init high low) as → s.Quiescent →
      let automaton := hysteresis (max high 1) (min low high) s.calls
      s.meter.pending = automaton.count ∧ s.meter.latched = automaton.set ∧
        (s.meter.latched = false → s.meter.pending < max high 1) ∧
        (s.meter.latched = true → min low high < s.meter.pending)) := by
  refine ⟨⟨fun i edge hi => ?_, ?_⟩, fun hband hmeets hquiet => ?_⟩
  · obtain ⟨k, hedges, -⟩ := edges_alternate hrun
    have hlt : i < k := by
      have := (List.getElem?_eq_some_iff.mp hi).1
      rwa [hedges, alternating_length] at this
    rw [hedges, alternating_get k i hlt] at hi
    exact (Option.some.inj hi).symm
  · obtain ⟨k, hedges, hlatched⟩ := edges_alternate hrun
    rw [hlatched, hedges, (alternating_count k).1, (alternating_count k).2, decide_eq_true_iff]
    omega
  · obtain ⟨hhigh, hlow⟩ := run_band hrun
    obtain ⟨hpending, hlatched, hbelow, habove⟩ := hysteresis_of_sequential hband hmeets hrun hquiet
    rw [hhigh, hlow] at hpending hlatched
    rw [hhigh] at hbelow
    rw [hlow] at habove
    exact ⟨hpending, hlatched, hbelow, habove⟩

/-- The calls of the gauge's test: a latch cycle, with the clamped resume point, and zero-length calls. -/
def latchCycle : List RaceAction :=
  [.start (.charge 600), .advance 0, .start (.charge 500), .advance 1, .advance 1,
    .start (.charge 4000), .advance 2, .advance 2, .start (.discharge 4200), .advance 3, .advance 3,
    .start (.discharge 600), .advance 4, .advance 4, .advance 4, .start (.discharge 0), .advance 5,
    .advance 5, .start (.charge 0), .advance 6]

theorem meter_edges_and_hysteresis_cycle :
    ∃ s, run step (init 1000 400) latchCycle = some s ∧ s.edges = [.pause, .resume] ∧
      s.meter.pending = (hysteresis 1000 400 s.calls).count ∧ s.meter.latched = false := by
  have hlast : ∃ s ∈ run step (init 1000 400) latchCycle,
      s.edges = [.pause, .resume] ∧ s.meter.latched = false ∧ s.Quiescent := by decide
  obtain ⟨s, hs, hedges, hopen, hquiet⟩ := hlast
  have hmeets : Meets step Sequential (init 1000 400) latchCycle := by decide
  obtain ⟨hpending, -⟩ := (meter_edges_and_hysteresis 1000 400 latchCycle s hs).2 (by decide) hmeets hquiet
  exact ⟨s, hs, hedges, hpending, hopen⟩

/-! ## A drained backlog -/

/-- The bytes pending and still to be added. -/
def coming (s : Race) : Nat := s.meter.pending + total MeterTask.toAdd s.tasks

/-- More than `low` bytes are there or on their way, or a discharge is in progress that will look at the
    latch for a drained backlog. -/
def Covered (s : Race) : Prop :=
  s.meter.low < s.coming ∨ ∃ t ∈ s.tasks, t.willLook s.meter.low = true

/-- The next access of the call is an exchange that latches the gauge. -/
def latches (s : Race) (i : Nat) : Bool :=
  match s.tasks[i]? with
  | some t => t.phase = .latching && !s.meter.latched
  | none => false

/-- The next access of the call adds so much that the counter wraps around. -/
def wraps (s : Race) (i : Nat) : Bool :=
  match s.tasks[i]? with
  | some t => usizeRange ≤ s.meter.pending + t.toAdd
  | none => false

/-- The gauge is latched only while it is covered, and the counter does not wrap around. -/
def LatchesCovered (s : Race) : RaceAction → Prop
  | .start _ => True
  | .advance i => (s.latches i = true → s.Covered) ∧ s.wraps i = false

/-- A discharge takes back bytes that were added. -/
def Paired (s : Race) : RaceAction → Prop
  | .start _ => True
  | .advance i => ∀ t ∈ s.tasks[i]?, ∀ n, t = ⟨.discharge n, .counting⟩ → n ≤ s.meter.pending

instance (s : Race) : Decidable s.Covered :=
  inferInstanceAs (Decidable (_ ∨ ∃ t ∈ s.tasks, t.willLook s.meter.low = true))

instance (s : Race) : (a : RaceAction) → Decidable (LatchesCovered s a)
  | .start _ => isTrue trivial
  | .advance _ => inferInstanceAs (Decidable ((_ → _) ∧ _))

/-- A latch that is set is covered. -/
def CoverInv (s : Race) : Prop := s.meter.latched = true → s.Covered

/-- The call that moves may be replaced by one that covers as much. -/
theorem covered_of_set {task' : MeterTask} (hi : s.tasks[i]? = some task)
    (htasks : t.tasks = s.tasks.set i task') (hlow : t.meter.low = s.meter.low)
    (hcoming : s.meter.pending + task.toAdd ≤ t.meter.pending + task'.toAdd)
    (hlook : task.willLook s.meter.low = true → task'.willLook s.meter.low = true)
    (h : s.Covered) : t.Covered := by
  rcases h with hsum | hlooks
  · left
    have := total_set MeterTask.toAdd task' hi
    rw [coming] at hsum ⊢
    rw [hlow, htasks]
    omega
  · right
    rw [htasks, hlow]
    rcases exists_mem_set task' hi hlooks with hrest | htask
    · exact hrest
    · exact ⟨task', List.mem_set (List.getElem?_eq_some_iff.mp hi).1 _, hlook htask⟩

theorem mem_setTask {phase : MeterPhase} (hi : s.tasks[i]? = some task) :
    { task with phase := phase } ∈ (s.setTask i task phase).tasks :=
  List.mem_set (List.getElem?_eq_some_iff.mp hi).1 _

theorem Access.cover (h : Access s i task t) (hi : s.tasks[i]? = some task) (hs : s.CoverInv)
    (hg : LatchesCovered s (.advance i)) : t.CoverInv := by
  intro hlatched
  cases h with
  | @add n hcall phase hphase =>
    subst hcall
    have hwrap : (s.meter.pending + n) % usizeRange = s.meter.pending + n := by
      have hno := hg.2
      rw [wraps, hi] at hno
      exact Nat.mod_eq_of_lt (Nat.lt_of_not_le (of_decide_eq_false hno))
    refine covered_of_set hi rfl rfl ?_ nofun (hs hlatched)
    show s.meter.pending + n ≤ (s.meter.pending + n) % usizeRange + _
    rw [hwrap]
    exact Nat.le_add_right _ _
  | @sub n hcall =>
    subst hcall
    by_cases hle : s.meter.pending - n ≤ s.meter.low
    · exact .inr ⟨_, mem_setTask hi, decide_eq_true hle⟩
    · left
      show s.meter.low < s.meter.pending - n + _
      omega
  | latch hphase hopen =>
    have hcovered : s.Covered := hg.1 (by simp [latches, hi, hphase, hopen])
    obtain ⟨call, phase⟩ := task
    cases hphase
    exact covered_of_set hi rfl rfl (Nat.le_refl _) nofun hcovered
  | latchLate hphase =>
    obtain ⟨call, phase⟩ := task
    cases hphase
    exact covered_of_set hi rfl rfl (Nat.le_refl _) nofun (hs hlatched)
  | @look after hphase hl hlow =>
    exact .inr ⟨_, mem_setTask hi, rfl⟩
  | @pass after hphase hno =>
    -- the discharge left more than `low`, so it was no cover
    obtain ⟨call, phase⟩ := task
    cases hphase
    have hl : s.meter.latched = true := hlatched
    refine covered_of_set hi rfl rfl (Nat.le_refl _) (fun h => ?_) (hs hl)
    exact absurd ⟨hl, of_decide_eq_true h⟩ hno
  | unlatch => contradiction
  | unlatchLate hphase hopen =>
    rw [show s.meter.latched = true from hlatched] at hopen
    contradiction

theorem step_coverInv {a : RaceAction} (hs : s.CoverInv) (hg : LatchesCovered s a)
    (h : s.step a = some t) : t.CoverInv := by
  cases a with
  | start call =>
    obtain rfl := Option.some.inj h
    intro hlatched
    rcases hs hlatched with hsum | ⟨x, hx, hlook⟩
    · left
      rw [coming] at hsum ⊢
      rw [total_append]
      show s.meter.low < s.meter.pending + _
      omega
    · exact .inr ⟨x, List.mem_append_left _ hx, hlook⟩
  | advance i =>
    obtain ⟨task, hi, haccess⟩ := step_access h
    exact haccess.cover hi hs hg

theorem toAdd_of_done (h : task.isDone = true) : task.toAdd = 0 := by
  obtain ⟨call, phase⟩ := task
  cases phase <;> first | contradiction | rfl

theorem willLook_of_done {low : Nat} (h : task.isDone = true) : task.willLook low = false := by
  obtain ⟨call, phase⟩ := task
  cases phase <;> first | contradiction | rfl

/-- **A drained gauge is open.** In every run in which the gauge is latched only while more than `low`
    bytes are there or on their way, or a discharge is in progress that will see the latch: whenever no
    call is in progress and at most `low` bytes are pending, the gauge is not latched. -/
theorem drained_is_open {high low : Nat} {as : List RaceAction}
    (hmeets : Meets step LatchesCovered (init high low) as)
    (hrun : run step (init high low) as = some s) (hquiet : s.Quiescent)
    (hdrained : s.meter.pending ≤ s.meter.low) : s.meter.latched = false := by
  have hinv : s.CoverInv :=
    run_inv (fun _ _ _ hs hg h => step_coverInv hs hg h) (fun h => by cases h) hmeets hrun
  rcases hlatched : s.meter.latched with _ | _
  · rfl
  · rcases hinv hlatched with hsum | ⟨x, hx, hlook⟩
    · rw [coming, total_eq_zero fun x hx => toAdd_of_done (hquiet x hx)] at hsum
      omega
    · rw [willLook_of_done (hquiet x hx)] at hlook
      contradiction

/-! ## A latch without cover -/

/-- Accesses that a call has at most left. -/
def rank (t : MeterTask) : Nat :=
  match t.phase with
  | .counting => 3
  | .loading _ => 2
  | .latching => 1
  | .unlatching => 1
  | .done _ => 0

/-- Latched for good: nothing in progress adds enough, and nobody will look. -/
def Stranded (s : Race) : Prop := s.meter.latched = true ∧ ¬ s.Covered

theorem exists_advance (h : task.isDone = false) : ∃ t, s.advance i task = some t := by
  obtain ⟨call, phase⟩ := task
  cases phase with
  | counting => cases call <;> exact ⟨_, rfl⟩
  | latching | loading after | unlatching => exact ⟨_, rfl⟩
  | done edge => contradiction

/-- Replacing a call by one that neither adds nor looks does not cover the latch. -/
theorem not_covered_of_set {task' : MeterTask} (hi : s.tasks[i]? = some task)
    (htasks : t.tasks = s.tasks.set i task') (hlow : t.meter.low = s.meter.low)
    (hcoming : t.meter.pending + task'.toAdd ≤ s.meter.pending + task.toAdd)
    (hlook : task'.willLook s.meter.low = false) (h : ¬ s.Covered) : ¬ t.Covered := by
  rintro (hsum | hlooks)
  · refine h (.inl ?_)
    have := total_set MeterTask.toAdd task' hi
    rw [coming] at hsum ⊢
    rw [hlow, htasks] at hsum
    omega
  · rw [htasks, hlow] at hlooks
    rcases exists_of_mem_set hlooks with hold | hnew
    · exact h (.inr hold)
    · rw [hlook] at hnew
      contradiction

theorem Access.stranded (h : Access s i task t) (hi : s.tasks[i]? = some task) (hs : s.Stranded) :
    t.Stranded ∧ ∃ task', t.tasks = s.tasks.set i task' ∧ rank task' < rank task := by
  obtain ⟨hlatched, hno⟩ := hs
  have hnobody : task.willLook s.meter.low = false := by
    rcases hlook : task.willLook s.meter.low with _ | _
    · rfl
    · exact absurd (.inr ⟨task, List.mem_of_getElem? hi, hlook⟩) hno
  cases h with
  | @add n hcall phase hphase =>
    subst hcall
    have hle : (s.meter.pending + n) % usizeRange ≤ s.meter.pending + n := Nat.mod_le _ _
    split at hphase <;> subst hphase
    · exact ⟨⟨hlatched, not_covered_of_set hi rfl rfl hle rfl hno⟩, _, rfl,
        Nat.lt_add_of_pos_left Nat.two_pos⟩
    · exact ⟨⟨hlatched, not_covered_of_set hi rfl rfl hle rfl hno⟩, _, rfl, Nat.zero_lt_succ 2⟩
  | sub hcall =>
    subst hcall
    contradiction
  | latch hphase hopen =>
    rw [hlatched] at hopen
    contradiction
  | latchLate hphase =>
    obtain ⟨call, phase⟩ := task
    cases hphase
    exact ⟨⟨hlatched, not_covered_of_set hi rfl rfl (Nat.le_refl _) rfl hno⟩, _, rfl, Nat.one_pos⟩
  | look hphase hl hlow =>
    obtain ⟨call, phase⟩ := task
    cases hphase
    rw [show MeterTask.willLook s.meter.low _ = decide (_ ≤ s.meter.low) from rfl,
      decide_eq_true hlow] at hnobody
    contradiction
  | pass hphase =>
    obtain ⟨call, phase⟩ := task
    cases hphase
    exact ⟨⟨hlatched, not_covered_of_set hi rfl rfl (Nat.le_refl _) rfl hno⟩, _, rfl, Nat.two_pos⟩
  | unlatch hphase | unlatchLate hphase =>
    obtain ⟨call, phase⟩ := task
    cases hphase
    contradiction

/-- **The condition is exact.** When a call latches the gauge without cover, the calls in progress can
    end with at most `low` bytes pending and the gauge latched. -/
theorem uncovered_latch_strands (hlatches : s.latches i = true) (hno : ¬ s.Covered)
    (h : s.step (.advance i) = some t) :
    ∃ as u, (∀ a ∈ as, ∃ j, a = .advance j) ∧ run step t as = some u ∧ u.Quiescent ∧
      u.meter.pending ≤ u.meter.low ∧ u.meter.latched = true := by
  have hstart : t.Stranded := by
    obtain ⟨task, hi, haccess⟩ := step_access h
    rw [latches, hi] at hlatches
    simp only [Bool.and_eq_true, decide_eq_true_eq, Bool.not_eq_true'] at hlatches
    obtain ⟨call, phase⟩ := task
    obtain ⟨rfl, hopen⟩ := hlatches
    cases haccess with
    | latch => exact ⟨rfl, not_covered_of_set hi rfl rfl (Nat.le_refl _) rfl hno⟩
    | latchLate _ hl =>
      rw [hl] at hopen
      contradiction
    | add hcall | sub hcall => cases hcall
    | look hphase | pass hphase | unlatch hphase | unlatchLate hphase => cases hphase
  have hprogress : ∀ s : Race, s.Stranded → s.Quiescent ∨ ∃ a t, (∃ j, a = .advance j) ∧
      s.step a = some t ∧ t.Stranded ∧ total rank t.tasks < total rank s.tasks := by
    intro s hs
    by_cases hquiet : s.Quiescent
    · exact .inl hquiet
    · obtain ⟨task, hmem, hdone⟩ : ∃ x ∈ s.tasks, ¬ x.isDone = true := by
        simpa [Quiescent] using hquiet
      obtain ⟨j, hj⟩ := List.mem_iff_getElem?.mp hmem
      obtain ⟨t, ht⟩ := exists_advance (s := s) (i := j) (Bool.eq_false_iff.mpr hdone)
      obtain ⟨hstranded, task', htasks, hrank⟩ := (advance_access ht).stranded hj hs
      refine .inr ⟨.advance j, t, ⟨j, rfl⟩, Option.bind_eq_some_iff.mpr ⟨task, hj, ht⟩, hstranded, ?_⟩
      have := total_set rank task' hj
      rw [htasks]
      omega
  obtain ⟨as, u, has, hrun, ⟨hlatched, hnever⟩, hquiet⟩ := run_reaches (fun s => total rank s.tasks)
    hprogress hstart
  refine ⟨as, u, has, hrun, hquiet, ?_, hlatched⟩
  by_contra hlt
  exact hnever (.inl (Nat.lt_of_lt_of_le (Nat.lt_of_not_le hlt) (Nat.le_add_right _ _)))

/-- Two charges and two discharges interleaved: the second charge latches while the first discharge is in
    progress, which finds the backlog drained and opens the latch again. -/
def coveredRace : List RaceAction :=
  [.start (.charge 4), .start (.charge 7), .advance 0, .advance 1, .start (.discharge 7), .advance 2,
    .start (.discharge 4), .advance 3, .advance 1, .advance 2, .advance 2, .advance 3]

theorem drained_is_open_covered :
    ∃ s, run step (init 10 5) coveredRace = some s ∧ s.edges = [.pause, .resume] ∧
      s.meter.latched = false := by
  have hlast : ∃ s ∈ run step (init 10 5) coveredRace,
      s.edges = [.pause, .resume] ∧ s.Quiescent ∧ s.meter.pending ≤ s.meter.low := by decide
  obtain ⟨s, hs, hedges, hquiet, hdrained⟩ := hlast
  have hmeets : Meets step LatchesCovered (init 10 5) coveredRace := by decide
  exact ⟨s, hs, hedges, drained_is_open hmeets hs hquiet hdrained⟩

/-- A charge crosses `high`, its bytes are discharged, and then it latches. -/
def latchAfterDrain : List RaceAction :=
  [.start (.charge 10), .advance 0, .start (.discharge 10), .advance 1, .advance 1, .advance 0]

theorem drained_stays_latched :
    ¬ ∀ (high low : Nat) (as : List RaceAction) (s : Race), Meets step Paired (init high low) as →
      run step (init high low) as = some s → s.Quiescent → s.meter.pending ≤ s.meter.low →
        s.meter.latched = false := by
  intro h
  have hlast : ∃ s ∈ run step (init 10 5) latchAfterDrain,
      s.Quiescent ∧ s.meter.pending ≤ s.meter.low ∧ s.meter.latched = true := by decide
  obtain ⟨s, hs, hquiet, hdrained, hlatched⟩ := hlast
  have hpaired : Meets step Paired (init 10 5) latchAfterDrain := by
    simp [latchAfterDrain, Meets, Paired, step, init, advance, setTask, report, FlowMeter.new,
      FlowMeter.fetchAdd, FlowMeter.sub, FlowMeter.latch, usizeRange]
  rw [h 10 5 _ s hpaired hs hquiet hdrained] at hlatched
  contradiction

end Race

end RemoteX11.Flow
