/-
  The receiver's congestion gauge and the advertisement of its edges (`flow.rs`, `FlowMeter` and
  `Advertiser`).

  `charge` and `discharge` run on different tasks, so the gauge is given here by its single atomic
  accesses: `add`, `latch`, `sub`, `unlatch`. `FlowMeter.charge` and `FlowMeter.discharge` put them
  together in the order the source does; `Flow.Channel` lets other tasks in between.

  A `HashSet` or `HashMap` is the list of its entries in iteration order.
-/
import RemoteX11.Protocol.Messages

namespace RemoteX11.Flow

open RemoteX11.Lib RemoteX11.Protocol

/-! ## The gauge -/

structure FlowMeter where
  pending : Nat
  high : Nat
  low : Nat
  latched : Bool
  deriving DecidableEq, Repr

namespace FlowMeter

/-- `FlowMeter::new`: the resume point is clamped to the pause point. -/
def new (high low : Nat) : FlowMeter where
  pending := 0
  high := max high 1
  low := min low high
  latched := false

/-- `pending.fetch_add(n)`. -/
def add (m : FlowMeter) (n : Nat) : FlowMeter := { m with pending := m.pending + n }

/-- The `fetch_update` of `discharge`: `saturating_sub`. -/
def sub (m : FlowMeter) (n : Nat) : FlowMeter := { m with pending := m.pending - n }

/-- `latch`: a compare-exchange from open to latched. -/
def latch (m : FlowMeter) : Bool × FlowMeter := (!m.latched, { m with latched := true })

/-- `unlatch`: a compare-exchange from latched to open. -/
def unlatch (m : FlowMeter) : Bool × FlowMeter := (m.latched, { m with latched := false })

def reset (m : FlowMeter) : FlowMeter := { m with latched := false }

/-- `charge` with nothing in between: the pause edge. -/
def charge (m : FlowMeter) (n : Nat) : Bool × FlowMeter :=
  if m.high ≤ (m.add n).pending then (m.add n).latch else (false, m.add n)

/-- `discharge` with nothing in between: the resume edge. -/
def discharge (m : FlowMeter) (n : Nat) : Bool × FlowMeter :=
  if m.latched ∧ (m.sub n).pending ≤ m.low then (m.sub n).unlatch else (false, m.sub n)

end FlowMeter

/-! ## Edges and their advertisement -/

structure FlowEdge where
  connectionId : ConnectionId
  action : FlowControlAction
  deriving DecidableEq, Repr

def FlowEdge.pause (id : ConnectionId) : FlowEdge := ⟨id, .pause⟩

def FlowEdge.resume (id : ConnectionId) : FlowEdge := ⟨id, .resume⟩

/-- `RESUME_RETRANSMITS`. -/
def resumeRetransmits : Nat := 8

/-- A channel is advertised as paused or repeats its resume, never both. -/
structure Advertiser where
  paused : List ConnectionId
  resuming : List (ConnectionId × Nat)
  disjoint : ∀ id ∈ paused, ∀ x ∈ resuming, x.1 ≠ id
  deriving DecidableEq, Repr

namespace Advertiser

def empty : Advertiser where
  paused := []
  resuming := []
  disjoint := by intro id h; cases h

def isPaused (a : Advertiser) (id : ConnectionId) : Bool := a.paused.contains id

/-- `record` of a pause. -/
def recordPause (a : Advertiser) (id : ConnectionId) : Bool × Advertiser :=
  (!a.isPaused id,
    { paused := if a.isPaused id then a.paused else a.paused ++ [id]
      resuming := a.resuming.filter fun x => x.1 ≠ id
      disjoint := by
        intro p hp x hx
        have hx' := List.mem_filter.mp hx
        by_cases hpaused : a.isPaused id = true
        · rw [if_pos hpaused] at hp
          exact a.disjoint p hp x hx'.1
        · rw [if_neg hpaused] at hp
          rcases List.mem_append.mp hp with h | h
          · exact a.disjoint p h x hx'.1
          · rw [List.mem_singleton.mp h]
            exact of_decide_eq_true hx'.2 })

/-- `record` of a resume: a channel that was paused gets its retransmission budget. -/
def recordResume (a : Advertiser) (id : ConnectionId) : Bool × Advertiser :=
  (a.isPaused id,
    { paused := a.paused.filter fun p => p ≠ id
      resuming := (a.resuming.filter fun x => x.1 ≠ id) ++
        if a.isPaused id then [(id, resumeRetransmits)] else []
      disjoint := by
        intro p hp x hx
        have hp' := List.mem_filter.mp hp
        have hne : p ≠ id := of_decide_eq_true hp'.2
        rcases List.mem_append.mp hx with h | h
        · exact a.disjoint p hp'.1 x (List.mem_filter.mp h).1
        · split at h
          · rw [List.mem_singleton.mp h]
            exact fun heq => hne heq.symm
          · cases h })

/-- `record`: whether a frame must go out now, and the state afterwards. -/
def record (a : Advertiser) (edge : FlowEdge) : Bool × Advertiser :=
  match edge.action with
  | .pause => a.recordPause edge.connectionId
  | .resume => a.recordResume edge.connectionId

/-- `due`: every held pause and every resume that still has a budget. -/
def due (a : Advertiser) : List FlowEdge × Advertiser :=
  (a.paused.map FlowEdge.pause ++ a.resuming.map fun x => FlowEdge.resume x.1,
    { paused := a.paused
      resuming := (a.resuming.filter fun x => 1 < x.2).map fun x => (x.1, x.2 - 1)
      disjoint := by
        intro p hp x hx
        obtain ⟨y, hy, rfl⟩ := List.mem_map.mp hx
        exact a.disjoint p hp y (List.mem_filter.mp hy).1 })

/-- `forget`: the channel is closed. -/
def forget (a : Advertiser) (id : ConnectionId) : Advertiser where
  paused := a.paused.filter fun p => p ≠ id
  resuming := a.resuming.filter fun x => x.1 ≠ id
  disjoint := by
    intro p hp x hx
    exact a.disjoint p (List.mem_filter.mp hp).1 x (List.mem_filter.mp hx).1

theorem isPaused_record_pause (a : Advertiser) (id : ConnectionId) :
    (a.record (.pause id)).2.isPaused id = true := by
  show (if a.isPaused id then a.paused else a.paused ++ [id]).contains id = true
  by_cases h : a.isPaused id = true
  · rw [if_pos h]
    exact h
  · rw [if_neg h]
    simp

/-- An edge of another channel leaves this one alone. -/
theorem isPaused_record_of_ne (a : Advertiser) (edge : FlowEdge) (id : ConnectionId)
    (h : edge.connectionId ≠ id) : (a.record edge).2.isPaused id = a.isPaused id := by
  have h' : id ≠ edge.connectionId := fun heq => h heq.symm
  unfold record
  cases edge.action with
  | pause =>
    show (if a.isPaused edge.connectionId then a.paused
      else a.paused ++ [edge.connectionId]).contains id = a.paused.contains id
    by_cases hp : a.isPaused edge.connectionId = true
    · rw [if_pos hp]
    · rw [if_neg hp]
      simp [h']
  | resume =>
    rw [Bool.eq_iff_iff]
    simp [recordResume, isPaused, h']

theorem isPaused_forget_of_ne (a : Advertiser) {id id' : ConnectionId} (h : id' ≠ id) :
    (a.forget id).isPaused id' = a.isPaused id' := by
  rw [Bool.eq_iff_iff]
  simp [forget, isPaused, h]

/-- What a tick re-states for one channel: its pause if it is held, else at most a resume. -/
theorem due_of_isPaused (a : Advertiser) (id : ConnectionId) (h : a.isPaused id = true) :
    ∀ e ∈ a.due.1, e.connectionId = id → e = .pause id := by
  intro e he heq
  rcases List.mem_append.mp he with hm | hm
  · obtain ⟨p, -, rfl⟩ := List.mem_map.mp hm
    subst heq
    rfl
  · obtain ⟨x, hx, rfl⟩ := List.mem_map.mp hm
    have hid : id ∈ a.paused := by simpa [isPaused] using h
    exact absurd heq (a.disjoint id hid x hx)

end Advertiser

end RemoteX11.Flow
