/-
  Senders that outlive the receiver of an outbound queue (`queue.rs`, `Drop for OutboundReceiver`).

  `Drop::drop` notifies the gate while the channel is still open and leaves `inflight` as it is. A
  call that wakes up, or starts, afterwards checks the byte budget before it tries the channel, so
  with frames left in flight it may park again, and nobody is left to notify it.

  `closed_sends_return`: when the channel closes on calls that would all pass the budget check, and
  none is parked un-notified or between its push and its add, every call ends with `Err(frame)` by
  its own next steps, in every state any such run reaches.
-/
import RemoteX11.Queue.System

namespace RemoteX11.Queue

open RemoteX11.Lib RemoteX11.Protocol

/-- The call has neither returned nor been dropped. -/
def SendCall.InProgress (c : SendCall) : Prop :=
  match c.phase with
  | .returnedOk => False
  | .returnedErr _ => False
  | .cancelled => False
  | _ => True

/-- The call reaches the `try_send` of a closed channel by its own steps: it has not pushed, it is
    not parked without a notification, and it passes the budget check if it still has to. -/
def SendCall.WillReturn (q : Lanes) (c : SendCall) : Prop :=
  match c.phase with
  | .enabled _ => q.room c.size = true
  | .admitted _ => True
  | .pushed => False
  | .parked woken => woken = true ∧ q.room c.size = true
  | .returnedOk => True
  | .returnedErr _ => True
  | .cancelled => True

instance (q : Lanes) (c : SendCall) : Decidable (c.WillReturn q) :=
  match c with
  | ⟨_, .enabled _⟩ => inferInstanceAs (Decidable (_ = _))
  | ⟨_, .admitted _⟩ => isTrue trivial
  | ⟨_, .pushed⟩ => isFalse id
  | ⟨_, .parked _⟩ => inferInstanceAs (Decidable (_ = _ ∧ _ = _))
  | ⟨_, .returnedOk⟩ => isTrue trivial
  | ⟨_, .returnedErr _⟩ => isTrue trivial
  | ⟨_, .cancelled⟩ => isTrue trivial

namespace State

/-- The channel closes on calls that will return, and a call that starts later finds room. -/
def ClosesClean (s : State) (a : Action) : Prop :=
  match a with
  | .closeBulk => ∀ c ∈ s.sends, c.WillReturn s.lanes
  | .start frame => s.rx.closedBulk = true → s.lanes.room frame.encodedSize = true
  | _ => True

instance (s : State) (a : Action) : Decidable (s.ClosesClean a) :=
  match a with
  | .closeBulk => inferInstanceAs (Decidable (∀ c ∈ s.sends, c.WillReturn s.lanes))
  | .start _ => inferInstanceAs (Decidable (_ = _ → _ = _))
  | .send _ | .cancel _ | .pushPriority _ | .addBacklog | .popBulk | .release | .notify
  | .popPriority | .releasePriority | .dropReceiver | .closePriority => isTrue trivial

/-- No call is parked with no wake-up pending. -/
def Unstuck (s : State) : Prop := ∀ c ∈ s.sends, c.phase ≠ .parked false

/-- Every call in progress returns its frame as an error by its own next steps. -/
def AllReturnErr (s : State) : Prop :=
  ∀ i c, s.sends[i]? = some c → c.InProgress →
    ∃ k t, run step s (List.replicate k (.send i)) = some t ∧
      t.sends[i]? = some ⟨c.frame, .returnedErr c.frame⟩

/-! ## Steps on a closed channel -/

/-- On a closed channel a call that will return still does after any step of its own. -/
theorem sendStep_willReturn {s t : State} {i : Nat} {c : SendCall}
    (hclosed : s.rx.closedBulk = true) (hall : ∀ c ∈ s.sends, c.WillReturn s.lanes)
    (hc : c.WillReturn s.lanes) (h : s.sendStep i c = some t) :
    t.lanes = s.lanes ∧ ∀ c ∈ t.sends, c.WillReturn s.lanes := by
  unfold SendCall.WillReturn at hc
  unfold sendStep at h
  split at h
  case h_1 w hp =>
    rw [hp] at hc
    rw [if_pos hc] at h
    obtain rfl := Option.some.inj h
    exact ⟨rfl, forall_mem_set hall trivial⟩
  case h_2 w hp =>
    rw [if_pos hclosed] at h
    obtain rfl := Option.some.inj h
    exact ⟨rfl, forall_mem_set hall trivial⟩
  case h_3 hp =>
    rw [hp] at hc
    exact hc.elim
  case h_4 hp =>
    rw [hp] at hc
    obtain rfl := Option.some.inj h
    exact ⟨rfl, forall_mem_set hall hc.2⟩
  all_goals cases h

/-- Once the channel is closed, every call will return. -/
def ClosedReturns (s : State) : Prop :=
  s.rx.closedBulk = true → ∀ c ∈ s.sends, c.WillReturn s.lanes

theorem step_closedReturns {s t : State} {a : Action} (hs : s.ClosedReturns)
    (hg : s.ClosesClean a) (h : s.step a = some t) : t.ClosedReturns := by
  intro hclosed
  cases a with
  | start frame =>
    obtain rfl := Option.some.inj h
    exact forall_mem_snoc (hs hclosed) (hg hclosed)
  | send i =>
    simp only [step] at h
    split at h
    · rename_i c hc
      have hrx : t.rx = s.rx := by
        unfold sendStep at h
        split at h <;> (try split at h) <;> (try split at h) <;> cases h <;> rfl
      rw [hrx] at hclosed
      obtain ⟨hlanes, hall⟩ := sendStep_willReturn hclosed (hs hclosed)
        (hs hclosed c (List.mem_of_getElem? hc)) h
      rwa [hlanes]
    · contradiction
  | cancel i =>
    simp only [step] at h
    split at h
    · obtain rfl := Option.some.inj h
      exact forall_mem_set (hs hclosed) trivial
    · contradiction
  | pushPriority frame =>
    simp only [step] at h
    split at h
    · obtain rfl := Option.some.inj h
      exact hs hclosed
    · obtain rfl := Option.some.inj h
      exact hs hclosed
  | addBacklog =>
    simp only [step] at h
    split at h
    · contradiction
    · obtain rfl := Option.some.inj h
      exact hs hclosed
  | closeBulk =>
    simp only [step] at h
    split at h
    · obtain rfl := Option.some.inj h
      exact hg
    · contradiction
  | closePriority =>
    simp only [step] at h
    split at h
    · rename_i hrx
      obtain rfl := Option.some.inj h
      exact hs (by rw [hrx]; rfl)
    · contradiction
  | popBulk | release | notify | popPriority | releasePriority | dropReceiver =>
    -- the receiver is still there afterwards
    simp only [step] at h
    split at h
    · cases h; cases hclosed
    · contradiction

/-! ## Every call returns -/

theorem getElem?_setPhase {s : State} {i : Nat} {c : SendCall} {p : SendPhase}
    (hc : s.sends[i]? = some c) :
    (s.setPhase i c p).sends[i]? = some { c with phase := p } := by
  have hi : i < s.sends.length := (List.getElem?_eq_some_iff.mp hc).1
  simp only [setPhase, List.getElem?_set_self hi]

/-- A call that is about to `try_send` on a closed channel gets its frame back. -/
theorem admitted_returns {s : State} {i : Nat} {f : Frame} {w : Bool}
    (hclosed : s.rx.closedBulk = true) (hc : s.sends[i]? = some ⟨f, .admitted w⟩) :
    ∃ t, run step s [.send i] = some t ∧ t.sends[i]? = some ⟨f, .returnedErr f⟩ := by
  refine ⟨s.setPhase i ⟨f, .admitted w⟩ (.returnedErr f), ?_, getElem?_setPhase hc⟩
  simp only [run, step, hc, sendStep, if_pos hclosed, Option.bind]

theorem enabled_returns {s : State} {i : Nat} {f : Frame} {w : Bool}
    (hclosed : s.rx.closedBulk = true) (hc : s.sends[i]? = some ⟨f, .enabled w⟩)
    (hroom : s.lanes.room f.encodedSize = true) :
    ∃ t, run step s [.send i, .send i] = some t ∧ t.sends[i]? = some ⟨f, .returnedErr f⟩ := by
  have hstep : s.step (.send i) = some (s.setPhase i ⟨f, .enabled w⟩ (.admitted w)) := by
    simp only [step, hc, sendStep, SendCall.size, hroom, if_true]
  obtain ⟨t, ht, hres⟩ := admitted_returns
    (s := s.setPhase i ⟨f, .enabled w⟩ (.admitted w)) hclosed (getElem?_setPhase hc)
  exact ⟨t, run_cons_eq_some.mpr ⟨_, hstep, ht⟩, hres⟩

theorem parked_returns {s : State} {i : Nat} {f : Frame}
    (hclosed : s.rx.closedBulk = true) (hc : s.sends[i]? = some ⟨f, .parked true⟩)
    (hroom : s.lanes.room f.encodedSize = true) :
    ∃ t, run step s [.send i, .send i, .send i] = some t ∧
      t.sends[i]? = some ⟨f, .returnedErr f⟩ := by
  have hstep : s.step (.send i) = some (s.setPhase i ⟨f, .parked true⟩ (.enabled false)) := by
    simp only [step, hc, sendStep]
  obtain ⟨t, ht, hres⟩ := enabled_returns
    (s := s.setPhase i ⟨f, .parked true⟩ (.enabled false)) hclosed (getElem?_setPhase hc) hroom
  exact ⟨t, run_cons_eq_some.mpr ⟨_, hstep, ht⟩, hres⟩

theorem allReturnErr_of_willReturn {s : State} (hclosed : s.rx.closedBulk = true)
    (hall : ∀ c ∈ s.sends, c.WillReturn s.lanes) : s.AllReturnErr := by
  intro i c hc hprog
  have hw := hall c (List.mem_of_getElem? hc)
  obtain ⟨f, phase⟩ := c
  cases phase with
  | enabled w => exact ⟨2, enabled_returns hclosed hc hw⟩
  | admitted w => exact ⟨1, admitted_returns hclosed hc⟩
  | pushed => exact hw.elim
  | parked w =>
    obtain ⟨hwoken, hroom⟩ := hw
    subst hwoken
    exact ⟨3, parked_returns hclosed hc hroom⟩
  | returnedOk => exact hprog.elim
  | returnedErr f => exact hprog.elim
  | cancelled => exact hprog.elim

/-- **No send is left behind.** In every run that closes the channel cleanly, a state with the
    receiver gone has no call parked without a wake-up, and every call in progress returns
    `Err(frame)`. -/
theorem closed_sends_return (frameCapacity budgetBytes : Nat) (as : List Action) (s : State)
    (hr : run step (init frameCapacity budgetBytes) as = some s)
    (hm : Meets step ClosesClean (init frameCapacity budgetBytes) as)
    (hclosed : s.rx.closedBulk = true) : s.Unstuck ∧ s.AllReturnErr := by
  have hI : s.ClosedReturns :=
    run_inv (fun _ _ _ hs hg h => step_closedReturns hs hg h)
      (fun h => by cases h) hm hr
  refine ⟨?_, allReturnErr_of_willReturn hclosed (hI hclosed)⟩
  intro c hc hp
  have := hI hclosed c hc
  unfold SendCall.WillReturn at this
  rw [hp] at this
  cases this.1

/-- A queue that is empty when its receiver is dropped on a call that waited for room. -/
def emptyDropRun : List Action :=
  [.start .heartbeat, .send 0, .send 0, .send 0, .start .heartbeat, .send 1, .popBulk, .release,
    .notify, .dropReceiver, .closeBulk, .closePriority]

/-- A frame in flight when the receiver is dropped; the call behind it wakes and parks again. -/
def loadedDropRun : List Action :=
  [.start .heartbeat, .send 0, .send 0, .send 0, .start .heartbeat, .send 1, .dropReceiver,
    .closeBulk, .closePriority, .send 1, .send 1]

theorem closed_sends_return_empty :
    ∃ s, run step (init 2048 20) emptyDropRun = some s ∧ s.rx = .gone ∧
      s.sends[1]? = some ⟨.heartbeat, .parked true⟩ ∧ s.Unstuck ∧ s.AllReturnErr :=
  have hr := Option.eq_some_of_isSome
    (show (run step (init 2048 20) emptyDropRun).isSome = true by decide)
  ⟨_, hr, by decide, by decide,
    closed_sends_return 2048 20 emptyDropRun _ hr (by decide) (by decide)⟩

/-- The receiver is gone and a call is parked with nobody to wake it. -/
theorem loaded_drop_strands_send :
    ¬ ∀ (frameCapacity budgetBytes : Nat) (as : List Action) (s : State),
      run step (init frameCapacity budgetBytes) as = some s → s.rx = .gone → s.Unstuck := by
  intro h
  have hr := Option.eq_some_of_isSome
    (show (run step (init 2048 20) loadedDropRun).isSome = true by decide)
  exact h 2048 20 loadedDropRun _ hr (by decide) ⟨.heartbeat, .parked false⟩ (by decide) rfl

end State

end RemoteX11.Queue
