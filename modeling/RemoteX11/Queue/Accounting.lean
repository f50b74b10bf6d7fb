/-
  Do the counters of an outbound queue agree with its lanes?

  A push is visible before its `fetch_add`, so a receiver may release a frame that has not been
  charged yet; the release then saturates and the late `fetch_add` is never taken back. Every other
  step moves bytes between the lane, the counter and the calls in progress (`step_drift`). What the
  saturations of a run have lost is exactly the skew of the counters in the end (`run_drift`), so the
  counters are right in a quiescent state if and only if no release of the run saturated.
-/
import RemoteX11.Queue.System

namespace RemoteX11.Queue

open RemoteX11.Lib RemoteX11.Protocol

/-- The receiver exists and is not being dropped. -/
def RxPhase.live : RxPhase → Bool
  | .idle => true
  | .popped _ => true
  | .notifying => true
  | .poppedPriority => true
  | _ => false

/-- Bytes taken from the bulk lane and not yet released. -/
def RxPhase.unreleased : RxPhase → Nat
  | .popped size => size
  | _ => 0

/-- Frames taken from the priority lane and not yet released. -/
def RxPhase.unreleasedPriority : RxPhase → Nat
  | .poppedPriority => 1
  | _ => 0

namespace State

/-- No send and no pop is between its two steps; after its release the receiver may still have the
    gate to notify. -/
def Quiescent (s : State) : Prop :=
  (s.rx = .idle ∨ s.rx = .notifying) ∧ s.addsDue = 0 ∧ ∀ c ∈ s.sends, c.phase ≠ .pushed

/-- Both counters agree with their lane. -/
def Accounted (s : State) : Prop :=
  s.lanes.inflight = s.lanes.queuedBytes ∧ s.lanes.priorityBacklog = s.lanes.prio.length

/-- A release gives back no more than the counter holds. -/
def ReleaseCovered (s : State) (a : Action) : Prop :=
  match a, s.rx with
  | .release, .popped size => size ≤ s.lanes.inflight
  | .releasePriority, .poppedPriority => 1 ≤ s.lanes.priorityBacklog
  | _, _ => True

instance (s : State) (a : Action) : Decidable (s.ReleaseCovered a) :=
  match a with
  | .release =>
    match hrx : s.rx with
    | .popped size =>
      decidable_of_iff (size ≤ s.lanes.inflight) (by simp only [ReleaseCovered, hrx])
    | .idle | .notifying | .poppedPriority | .dropping | .bulkClosed | .gone =>
      isTrue (by simp only [ReleaseCovered, hrx])
  | .releasePriority =>
    match hrx : s.rx with
    | .poppedPriority =>
      decidable_of_iff (1 ≤ s.lanes.priorityBacklog) (by simp only [ReleaseCovered, hrx])
    | .idle | .popped _ | .notifying | .dropping | .bulkClosed | .gone =>
      isTrue (by simp only [ReleaseCovered, hrx])
  | .start _ | .send _ | .cancel _ | .pushPriority _ | .addBacklog | .popBulk | .notify
  | .popPriority | .dropReceiver | .closeBulk | .closePriority => isTrue trivial

/-! ## What one step moves -/

/-- Bytes the counter holds or is about to be given. -/
def charged (s : State) : Nat := s.lanes.inflight + total SendCall.unadded s.sends

/-- Bytes on the lane, or taken from it and about to be released. -/
def held (s : State) : Nat := s.lanes.queuedBytes + s.rx.unreleased

def chargedPriority (s : State) : Nat := s.lanes.priorityBacklog + s.addsDue

def heldPriority (s : State) : Nat := s.lanes.prio.length + s.rx.unreleasedPriority

/-- Bytes a saturating `release` fails to take back. -/
def lost (s : State) (a : Action) : Nat :=
  match a, s.rx with
  | .release, .popped size => size - s.lanes.inflight
  | _, _ => 0

/-- Frames a saturating `release_priority` fails to take back. -/
def lostPriority (s : State) (a : Action) : Nat :=
  match a, s.rx with
  | .releasePriority, .poppedPriority => 1 - s.lanes.priorityBacklog
  | _, _ => 0

/-- `s` becomes `t` with `d` bytes and `e` frames of skew added. -/
structure Drift (s t : State) (d e : Nat) : Prop where
  live : s.rx.live = true
  bulk : t.charged + s.held = s.charged + t.held + d
  prio : t.chargedPriority + s.heldPriority = s.chargedPriority + t.heldPriority + e

theorem unadded_notified (c : SendCall) : c.notified.unadded = c.unadded := by
  rcases c with ⟨frame, phase⟩
  cases phase <;> rfl

theorem releaseCovered_iff (s : State) (a : Action) :
    s.ReleaseCovered a ↔ s.lost a = 0 ∧ s.lostPriority a = 0 := by
  unfold ReleaseCovered lost lostPriority
  cases a <;> cases s.rx <;> simp <;> omega

/-- The bytes of one step that involves the bulk lane alone: what is charged and what is held change by
    the same. -/
def Moves (s t : State) : Prop :=
  t.charged + s.held = s.charged + t.held ∧
    t.chargedPriority + s.heldPriority = s.chargedPriority + t.heldPriority

/-- A call that holds no pushed bytes before or after changes phase: nothing moves. -/
theorem setPhase_moves {s : State} {i : Nat} {c : SendCall} {p : SendPhase}
    (hc : s.sends[i]? = some c) (h0 : c.unadded = 0) (hp : p ≠ .pushed) :
    Moves s (s.setPhase i c p) := by
  have hset := total_set SendCall.unadded { c with phase := p } hc
  have hp0 : SendCall.unadded { c with phase := p } = 0 := by
    unfold SendCall.unadded
    split
    · exact absurd ‹_› hp
    · rfl
  refine ⟨?_, rfl⟩
  simp only [charged, held, setPhase]
  omega

/-- A `send` call moves its bytes from the call to the lane and the counter. -/
theorem sendStep_moves {s t : State} {i : Nat} {c : SendCall} (hc : s.sends[i]? = some c)
    (h : s.sendStep i c = some t) : Moves s t ∧ t.rx = s.rx := by
  have hset : ∀ p, total SendCall.unadded (s.sends.set i { c with phase := p }) + c.unadded =
      total SendCall.unadded s.sends + SendCall.unadded { c with phase := p } :=
    fun p => total_set SendCall.unadded _ hc
  unfold sendStep at h
  split at h
  case h_1 w hp =>
    have h0 : c.unadded = 0 := by simp [SendCall.unadded, hp]
    split at h <;> cases h
    · exact ⟨setPhase_moves hc h0 (by simp), rfl⟩
    · exact ⟨setPhase_moves hc h0 (by simp), rfl⟩
  case h_2 w hp =>
    have h0 : c.unadded = 0 := by simp [SendCall.unadded, hp]
    split at h
    · obtain rfl := Option.some.inj h
      exact ⟨setPhase_moves hc h0 (by simp), rfl⟩
    · split at h
      · obtain rfl := Option.some.inj h
        exact ⟨setPhase_moves hc h0 (by simp), rfl⟩
      · -- the push: lane and call grow by the same size
        obtain rfl := Option.some.inj h
        refine ⟨⟨?_, rfl⟩, rfl⟩
        have := hset .pushed
        have hsize : SendCall.size { c with phase := SendPhase.pushed } = c.size := rfl
        simp only [charged, held, setPhase, SendCall.unadded, Lanes.pushBulk, Lanes.queuedBytes,
          List.map_append, List.sum_append, List.map_cons, List.map_nil, List.sum_cons,
          List.sum_nil, hsize] at this h0 ⊢
        omega
  case h_3 hp =>
    -- the `fetch_add`: the bytes go from the call to the counter
    have h0 : c.unadded = c.size := by simp [SendCall.unadded, hp]
    obtain rfl := Option.some.inj h
    refine ⟨⟨?_, rfl⟩, rfl⟩
    have := hset .returnedOk
    rw [h0] at this
    simp only [charged, held, setPhase, SendCall.unadded, Lanes.addInflight,
      Lanes.queuedBytes] at this ⊢
    omega
  case h_4 hp =>
    have h0 : c.unadded = 0 := by simp [SendCall.unadded, hp]
    obtain rfl := Option.some.inj h
    exact ⟨setPhase_moves hc h0 (by simp), rfl⟩
  all_goals cases h

/-- A step that moves bytes and leaves the receiver alone adds no skew. -/
theorem Moves.drift {s t : State} (h : Moves s t ∧ t.rx = s.rx) (hlive : t.rx.live = true) :
    Drift s t 0 0 :=
  ⟨h.2 ▸ hlive, h.1.1, h.1.2⟩

/-- A pop moves the bytes from the lane to the receiver. -/
theorem popBulk_drift {s t : State} (h : s.step .popBulk = some t) : Drift s t 0 0 := by
  simp only [step] at h
  split at h
  · rename_i hrx hbulk
    obtain rfl := Option.some.inj h
    refine ⟨by rw [hrx]; rfl, ?_, ?_⟩
    · simp only [charged, held, Lanes.queuedBytes, hbulk, hrx, RxPhase.unreleased,
        List.map_cons, List.sum_cons]
      omega
    · simp only [chargedPriority, heldPriority, hrx, RxPhase.unreleasedPriority, Nat.add_zero]
  · contradiction

/-- A release takes the receiver's bytes from the counter, as far as it holds them. -/
theorem release_drift {s t : State} (h : s.step .release = some t) :
    Drift s t (s.lost .release) 0 := by
  simp only [step] at h
  split at h
  · rename_i size hrx
    obtain rfl := Option.some.inj h
    refine ⟨by rw [hrx]; rfl, ?_, ?_⟩
    · simp only [charged, held, Lanes.release, Lanes.queuedBytes, hrx, RxPhase.unreleased, lost]
      omega
    · simp only [chargedPriority, heldPriority, Lanes.release, hrx, RxPhase.unreleasedPriority,
        Nat.add_zero]
  · contradiction

theorem popPriority_drift {s t : State} (h : s.step .popPriority = some t) : Drift s t 0 0 := by
  simp only [step] at h
  split at h
  · rename_i hrx hprio
    obtain rfl := Option.some.inj h
    refine ⟨by rw [hrx]; rfl, ?_, ?_⟩
    · simp only [charged, held, Lanes.queuedBytes, hrx, RxPhase.unreleased, Nat.add_zero]
    · simp only [chargedPriority, heldPriority, hrx, hprio, RxPhase.unreleasedPriority,
        List.length_cons]
      omega
  · contradiction

theorem releasePriority_drift {s t : State} (h : s.step .releasePriority = some t) :
    Drift s t 0 (s.lostPriority .releasePriority) := by
  simp only [step] at h
  split at h
  · rename_i hrx
    obtain rfl := Option.some.inj h
    refine ⟨by rw [hrx]; rfl, ?_, ?_⟩
    · simp only [charged, held, Lanes.releasePriority, Lanes.queuedBytes, hrx,
        RxPhase.unreleased, Nat.add_zero]
    · simp only [chargedPriority, heldPriority, Lanes.releasePriority, hrx,
        RxPhase.unreleasedPriority, lostPriority]
      omega
  · contradiction

/-- **One step.** Only a saturating release adds skew. -/
theorem step_drift {s t : State} {a : Action} (h : s.step a = some t) (hlive : t.rx.live = true) :
    Drift s t (s.lost a) (s.lostPriority a) := by
  cases a with
  | start frame =>
    obtain rfl := Option.some.inj h
    refine ⟨hlive, ?_, rfl⟩
    simp [charged, held, SendCall.unadded, lost]
  | send i =>
    simp only [step] at h
    split at h
    · exact Moves.drift (sendStep_moves ‹_› h) hlive
    · contradiction
  | cancel i =>
    simp only [step] at h
    split at h
    · obtain rfl := Option.some.inj h
      exact Moves.drift ⟨setPhase_moves ‹_› rfl (by simp), rfl⟩ hlive
    · contradiction
  | pushPriority frame =>
    simp only [step] at h
    split at h
    · obtain rfl := Option.some.inj h
      exact ⟨hlive, rfl, rfl⟩
    · obtain rfl := Option.some.inj h
      refine ⟨hlive, rfl, ?_⟩
      simp only [chargedPriority, heldPriority, Lanes.pushPriority, List.length_append,
        List.length_singleton, lostPriority]
      omega
  | addBacklog =>
    simp only [step] at h
    split at h
    · contradiction
    · obtain rfl := Option.some.inj h
      refine ⟨hlive, rfl, ?_⟩
      simp only [chargedPriority, heldPriority, Lanes.addBacklog, lostPriority]
      omega
  | popBulk => exact popBulk_drift h
  | release => exact release_drift h
  | notify =>
    simp only [step] at h
    split at h
    · rename_i hrx
      obtain rfl := Option.some.inj h
      refine ⟨by rw [hrx]; rfl, ?_, ?_⟩
      · simp only [charged, held, notifyWaiters, hrx, RxPhase.unreleased, lost,
          total_map _ _ _ unadded_notified]
        omega
      · simp only [chargedPriority, heldPriority, notifyWaiters, hrx, RxPhase.unreleasedPriority,
          lostPriority, Nat.add_zero]
    · contradiction
  | popPriority => exact popPriority_drift h
  | releasePriority => exact releasePriority_drift h
  | dropReceiver =>
    simp only [step] at h
    split at h
    · cases h; cases hlive
    · contradiction
  | closeBulk =>
    simp only [step] at h
    split at h
    · cases h; cases hlive
    · contradiction
  | closePriority =>
    simp only [step] at h
    split at h
    · cases h; cases hlive
    · contradiction

/-! ## What a run loses -/

/-- **Whole runs.** The skew at the end of a run is what its saturating releases lost, and it is
    nothing exactly when no release saturated. -/
theorem run_drift {s t : State} {as : List Action} (hr : run step s as = some t)
    (hlive : t.rx.live = true) :
    ∃ d e, Drift s t d e ∧ (d = 0 ∧ e = 0 ↔ Meets step ReleaseCovered s as) := by
  induction as generalizing s with
  | nil =>
    rw [run_nil, Option.some.injEq] at hr
    subst hr
    exact ⟨0, 0, ⟨hlive, rfl, rfl⟩, by simp [Meets]⟩
  | cons a as ih =>
    obtain ⟨w, hw, hr⟩ := run_cons_eq_some.mp hr
    obtain ⟨d, e, hrest, hiff⟩ := ih hr
    have hone := step_drift hw hrest.live
    refine ⟨s.lost a + d, s.lostPriority a + e, ⟨hone.live, ?_, ?_⟩, ?_⟩
    · have := hone.bulk
      have := hrest.bulk
      omega
    · have := hone.prio
      have := hrest.prio
      omega
    · rw [meets_cons hw, ← hiff, releaseCovered_iff]
      omega

/-- In a quiescent state every charged byte is in the counter and every held one on the lane. -/
theorem Quiescent.charged_eq {s : State} (h : s.Quiescent) :
    s.charged = s.lanes.inflight ∧ s.held = s.lanes.queuedBytes ∧
      s.chargedPriority = s.lanes.priorityBacklog ∧ s.heldPriority = s.lanes.prio.length := by
  obtain ⟨hrx, hadds, hsends⟩ := h
  have h0 : total SendCall.unadded s.sends = 0 := by
    apply total_eq_zero
    intro c hc
    unfold SendCall.unadded
    split
    · exact absurd ‹_› (hsends c hc)
    · rfl
  refine ⟨?_, ?_, ?_, ?_⟩
  · rw [charged, h0, Nat.add_zero]
  · rcases hrx with hrx | hrx <;> rw [held, hrx] <;> rfl
  · rw [chargedPriority, hadds, Nat.add_zero]
  · rcases hrx with hrx | hrx <;> rw [heldPriority, hrx] <;> rfl

/-- **The counters of a quiescent queue** agree with its lanes if and only if no release of the run
    gave back more than its counter held; then an empty queue has nothing in flight and no priority
    frame pending. -/
theorem quiescent_accounted_iff (frameCapacity budgetBytes : Nat) (as : List Action) (s : State)
    (hr : run step (init frameCapacity budgetBytes) as = some s) (hq : s.Quiescent) :
    (s.Accounted ↔ Meets step ReleaseCovered (init frameCapacity budgetBytes) as) ∧
      (Meets step ReleaseCovered (init frameCapacity budgetBytes) as →
        s.lanes.bulk = [] → s.lanes.prio = [] →
          s.lanes.inflight = 0 ∧ s.lanes.priorityPending = false) := by
  have hlive : s.rx.live = true := by
    rcases hq.1 with hrx | hrx <;> rw [hrx] <;> rfl
  obtain ⟨d, e, hd, hiff⟩ := run_drift hr hlive
  obtain ⟨hc, hh, hcp, hhp⟩ := hq.charged_eq
  have hbulk : s.lanes.inflight = s.lanes.queuedBytes + d := by
    have := hd.bulk
    rw [hc, hh] at this
    simpa [init, charged, held, outboundChannel, Lanes.queuedBytes, RxPhase.unreleased] using this
  have hprio : s.lanes.priorityBacklog = s.lanes.prio.length + e := by
    have := hd.prio
    rw [hcp, hhp] at this
    simpa [init, chargedPriority, heldPriority, outboundChannel, RxPhase.unreleasedPriority]
      using this
  have hacc : s.Accounted ↔ Meets step ReleaseCovered (init frameCapacity budgetBytes) as := by
    rw [← hiff]
    unfold Accounted
    omega
  refine ⟨hacc, ?_⟩
  intro hm hb hp
  obtain ⟨h1, h2⟩ := hacc.mpr hm
  refine ⟨?_, ?_⟩
  · rw [h1, Lanes.queuedBytes, hb]; rfl
  · rw [Lanes.priorityPending, h2, hp]; rfl

/-- A heartbeat sent and added before it is popped. -/
def orderlyRun : List Action :=
  [.start .heartbeat, .send 0, .send 0, .send 0, .start .heartbeatAck, .send 1, .send 1, .send 1,
    .popBulk, .release, .notify]

/-- A heartbeat popped and released between its push and its `fetch_add`. -/
def overtakenRun : List Action :=
  [.start .heartbeat, .send 0, .send 0, .popBulk, .release, .notify, .send 0]

theorem quiescent_accounted_iff_orderly :
    ∃ s, run step (init 2048 65536) orderlyRun = some s ∧ s.Quiescent ∧ s.lanes.inflight = 11 ∧
      (s.Accounted ↔ Meets step ReleaseCovered (init 2048 65536) orderlyRun) ∧
      (Meets step ReleaseCovered (init 2048 65536) orderlyRun → s.lanes.bulk = [] →
        s.lanes.prio = [] → s.lanes.inflight = 0 ∧ s.lanes.priorityPending = false) :=
  have hr := Option.eq_some_of_isSome
    (show (run step (init 2048 65536) orderlyRun).isSome = true by decide)
  have hq : Quiescent ((run step (init 2048 65536) orderlyRun).get (by decide)) :=
    ⟨by decide, by decide, by decide⟩
  ⟨_, hr, hq, by decide, quiescent_accounted_iff 2048 65536 orderlyRun _ hr hq⟩

/-- An empty queue with eleven bytes in flight. -/
theorem overtaken_not_accounted :
    ¬ ∀ (frameCapacity budgetBytes : Nat) (as : List Action) (s : State),
      run step (init frameCapacity budgetBytes) as = some s → s.Quiescent →
        s.Accounted ∧ (s.lanes.bulk = [] → s.lanes.inflight = 0) := by
  intro h
  have hr := Option.eq_some_of_isSome
    (show (run step (init 2048 65536) overtakenRun).isSome = true by decide)
  have := (h 2048 65536 overtakenRun _ hr ⟨by decide, by decide, by decide⟩).2 (by decide)
  exact absurd this (by decide)

end State

end RemoteX11.Queue
