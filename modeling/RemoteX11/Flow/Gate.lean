/-
  The enforcement gate of a channel (`flow.rs`, `EgressGate::set` and `EgressGate::wait_open`).

  `set` is a swap and, when the value changed, a `notify_waiters`; `wait_open` enables a `Notified`, loads
  the gate and either returns or parks, and starts over when it is woken. Any number of either may be in
  progress. A `notify_waiters` reaches every waiter that is enabled at that moment, whether it has parked
  yet or not.

  `no_lost_wakeup`: a waiter that is parked at an open gate is notified, or about to be.
-/
import RemoteX11.Lib.Calls
import RemoteX11.Lib.Keyed
import RemoteX11.Lib.Run

namespace RemoteX11.Flow

open RemoteX11.Lib

inductive SetPhase where
  | swapping
  /-- the value changed: `notify_waiters` is next -/
  | notifying
  | returned (changed : Bool)
  deriving DecidableEq, Repr

structure SetCall where
  paused : Bool
  phase : SetPhase
  deriving DecidableEq, Repr

/-- Where a `wait_open` call stands. `notified` says that its future has been notified since it was
    enabled. -/
inductive WaitPhase where
  | enabling
  /-- enabled, about to load the gate -/
  | loading (notified : Bool)
  /-- awaiting the future -/
  | parked (notified : Bool)
  | returned
  /-- the future of `wait_open` is dropped -/
  | dropped
  deriving DecidableEq, Repr

/-- What `notify_waiters` does to a waiter. -/
def WaitPhase.notify : WaitPhase → WaitPhase
  | .loading _ => .loading true
  | .parked _ => .parked true
  | p => p

structure EgressGate where
  paused : Bool
  sets : List SetCall
  waits : List WaitPhase
  deriving DecidableEq, Repr

inductive GateAction where
  | set (paused : Bool)
  | setStep (i : Nat)
  | waitOpen
  | waitStep (i : Nat)
  | drop (i : Nat)
  deriving DecidableEq, Repr

namespace EgressGate

def setStep (g : EgressGate) (i : Nat) (c : SetCall) : Option EgressGate :=
  match c.phase with
  | .swapping =>
    some { g with
      paused := c.paused
      sets := g.sets.set i { c with
        phase := if g.paused ≠ c.paused then .notifying else .returned false } }
  | .notifying =>
    some { g with
      sets := g.sets.set i { c with phase := .returned true }
      waits := g.waits.map WaitPhase.notify }
  | .returned _ => none

def waitStep (g : EgressGate) (i : Nat) : WaitPhase → Option EgressGate
  | .enabling => some { g with waits := g.waits.set i (.loading false) }
  | .loading notified =>
    some { g with waits := g.waits.set i (if g.paused then .parked notified else .returned) }
  | .parked true => some { g with waits := g.waits.set i .enabling }
  | .parked false => none
  | .returned => none
  | .dropped => none

def step (g : EgressGate) : GateAction → Option EgressGate
  | .set paused => some { g with sets := g.sets ++ [⟨paused, .swapping⟩] }
  | .setStep i => g.sets[i]?.bind fun c => g.setStep i c
  | .waitOpen => some { g with waits := g.waits ++ [.enabling] }
  | .waitStep i => g.waits[i]?.bind fun p => g.waitStep i p
  | .drop i =>
    match g.waits[i]? with
    | some (.parked _) => some { g with waits := g.waits.set i .dropped }
    | _ => none

/-- `EgressGate::new`. -/
def init : EgressGate where
  paused := false
  sets := []
  waits := []

/-- A `set` call is between its swap and its notify. -/
def Notifying (g : EgressGate) : Prop := ∃ c ∈ g.sets, c.phase = .notifying

/-- No waiter is parked at an open gate with no notification for it, now or about to come. -/
def AllWoken (g : EgressGate) : Prop :=
  .parked false ∈ g.waits → g.paused = false → g.Notifying

variable {g g' : EgressGate} {a : GateAction} {i : Nat}

theorem notify_ne_parked (p : WaitPhase) : p.notify ≠ .parked false := by
  cases p <;> simp [WaitPhase.notify]

theorem setStep_allWoken {c : SetCall} (h : g.AllWoken) (hi : g.sets[i]? = some c)
    (ht : g.setStep i c = some g') : g'.AllWoken := by
  have hlt := (List.getElem?_eq_some_iff.mp hi).1
  obtain ⟨paused, phase⟩ := c
  cases phase with
  | swapping =>
    obtain rfl := Option.some.inj ht
    intro hparked hopen
    by_cases hchanged : g.paused = paused
    · -- the gate was open before, and the call that is about to notify is another one
      obtain ⟨d, hd, hnotifying⟩ := h hparked (hchanged.trans hopen)
      rcases exists_mem_set (P := fun c => c.phase = .notifying) _ hi ⟨d, hd, hnotifying⟩ with
        hrest | hself
      · exact hrest
      · contradiction
    · refine ⟨_, List.mem_set hlt _, ?_⟩
      rw [if_pos hchanged]
  | notifying =>
    obtain rfl := Option.some.inj ht
    intro hparked
    obtain ⟨p, -, hp⟩ := List.mem_map.mp hparked
    exact absurd hp (notify_ne_parked p)
  | returned changed => contradiction

theorem waitStep_allWoken {p : WaitPhase} (h : g.AllWoken) (ht : g.waitStep i p = some g') :
    g'.AllWoken := by
  have hset : ∀ p', (p' = .parked false → g.paused = true) →
      EgressGate.AllWoken { g with waits := g.waits.set i p' } := by
    intro p' hp' hparked hopen
    rcases List.mem_or_eq_of_mem_set hparked with hold | rfl
    · exact h hold hopen
    · rw [show g.paused = false from hopen] at hp'
      exact absurd (hp' rfl) Bool.false_ne_true
  cases p with
  | enabling =>
    obtain rfl := Option.some.inj ht
    exact hset _ nofun
  | loading notified =>
    obtain rfl := Option.some.inj ht
    refine hset _ fun hp => ?_
    split at hp
    · assumption
    · contradiction
  | parked notified =>
    cases notified with
    | true =>
      obtain rfl := Option.some.inj ht
      exact hset _ nofun
    | false => contradiction
  | returned => contradiction
  | dropped => contradiction

theorem step_allWoken (h : g.AllWoken) (ht : g.step a = some g') : g'.AllWoken := by
  cases a with
  | set paused =>
    obtain rfl := Option.some.inj ht
    intro hparked hopen
    obtain ⟨c, hc, hnotifying⟩ := h hparked hopen
    exact ⟨c, List.mem_append_left _ hc, hnotifying⟩
  | setStep i =>
    obtain ⟨c, hi, ht⟩ := Option.bind_eq_some_iff.mp ht
    exact setStep_allWoken h hi ht
  | waitOpen =>
    obtain rfl := Option.some.inj ht
    intro hparked
    refine h ?_
    simpa using hparked
  | waitStep i =>
    obtain ⟨p, -, ht⟩ := Option.bind_eq_some_iff.mp ht
    exact waitStep_allWoken h ht
  | drop i =>
    simp only [step] at ht
    split at ht
    · obtain rfl := Option.some.inj ht
      intro hparked
      rcases List.mem_or_eq_of_mem_set hparked with hold | heq
      · exact h hold
      · contradiction
    · contradiction

/-- The call has returned before, or loads the open gate in this step. -/
def SawOpen (g : EgressGate) (a : GateAction) (i : Nat) : Prop :=
  g.waits[i]? = some .returned ∨
    a = .waitStep i ∧ ∃ notified, g.waits[i]? = some (.loading notified) ∧ g.paused = false

theorem sawOpen_of_set {j : Nat} {p p' : WaitPhase} (hj : g.waits[j]? = some p)
    (hret : (g.waits.set j p')[i]? = some .returned)
    (hload : p' = .returned → a = .waitStep j ∧ ∃ notified, p = .loading notified ∧ g.paused = false) :
    g.SawOpen a i := by
  obtain ⟨rfl, hp'⟩ | ⟨-, hret⟩ := getElem?_of_set hret
  · obtain ⟨ha, notified, rfl, hopen⟩ := hload hp'.symm
    exact .inr ⟨ha, notified, hj, hopen⟩
  · exact .inl hret

/-- A call returns by a load of the open gate. -/
theorem step_returned (ht : g.step a = some g') (hret : g'.waits[i]? = some .returned) :
    g.SawOpen a i := by
  cases a with
  | set paused =>
    obtain rfl := Option.some.inj ht
    exact .inl hret
  | setStep j =>
    obtain ⟨⟨paused, phase⟩, -, ht⟩ := Option.bind_eq_some_iff.mp ht
    cases phase with
    | swapping =>
      obtain rfl := Option.some.inj ht
      exact .inl hret
    | notifying =>
      obtain rfl := Option.some.inj ht
      rw [List.getElem?_map] at hret
      obtain ⟨p, hp, hnotify⟩ := Option.map_eq_some_iff.mp hret
      cases p with
      | returned => exact .inl hp
      | enabling | loading | parked | dropped => contradiction
    | returned changed => contradiction
  | waitOpen =>
    obtain rfl := Option.some.inj ht
    rcases get_snoc hret with hold | ⟨-, hnew⟩
    · exact .inl hold
    · contradiction
  | waitStep j =>
    obtain ⟨p, hj, ht⟩ := Option.bind_eq_some_iff.mp ht
    cases p with
    | enabling =>
      obtain rfl := Option.some.inj ht
      exact sawOpen_of_set hj hret nofun
    | loading notified =>
      obtain rfl := Option.some.inj ht
      refine sawOpen_of_set hj hret fun hp => ?_
      split at hp
      · contradiction
      · rename_i hopen
        exact ⟨rfl, notified, rfl, Bool.eq_false_iff.mpr hopen⟩
    | parked notified =>
      cases notified with
      | true =>
        obtain rfl := Option.some.inj ht
        exact sawOpen_of_set hj hret nofun
      | false => contradiction
    | returned | dropped => contradiction
  | drop j =>
    simp only [step] at ht
    split at ht
    · rename_i hj
      obtain rfl := Option.some.inj ht
      exact sawOpen_of_set hj hret nofun
    · contradiction

/-- **No lost wake-up.** In every interleaving of `set` and `wait_open` calls: when a waiter is parked
    with no notification pending for it and the gate is open, a `set` call is between its swap and its
    notify. And a call returns only by the step in which it loads the open gate. -/
theorem no_lost_wakeup (as : List GateAction) (g : EgressGate) (hrun : run step init as = some g) :
    (∀ i : Nat, g.waits[i]? = some (.parked false) → g.paused = false → g.Notifying) ∧
      ∀ a g', g.step a = some g' → ∀ i : Nat, g'.waits[i]? = some .returned → g.SawOpen a i := by
  have hwoken : g.AllWoken := run_inv_all (fun _ _ _ h ht => step_allWoken h ht)
    (fun h => absurd h List.not_mem_nil) hrun
  exact ⟨fun i hi => hwoken (List.mem_of_getElem? hi), fun a g' ht i => step_returned ht⟩

/-- The gate closes and opens again between a waiter's load and its park, and once more while another
    call of `set` has yet to notify. -/
def flips : List GateAction :=
  [.set true, .setStep 0, .setStep 0, .waitOpen, .waitStep 0, .waitStep 0, .set false, .setStep 1,
    .set true, .setStep 2, .setStep 1, .waitStep 0, .waitStep 0, .waitStep 0, .set false, .setStep 3]

/-- The waiter is parked at the open gate, and the last `set` will notify it. -/
theorem no_lost_wakeup_flips :
    ∃ g, run step init flips = some g ∧ g.waits = [.parked false] ∧ g.paused = false ∧ g.Notifying := by
  have hlast : ∃ g ∈ run step init flips, g.waits = [.parked false] ∧ g.paused = false := by decide
  obtain ⟨g, hg, hwaits, hopen⟩ := hlast
  exact ⟨g, hg, hwaits, hopen, (no_lost_wakeup flips g hg).1 0 (by rw [hwaits]; rfl) hopen⟩

end EgressGate

end RemoteX11.Flow
