/-
  The order in which frames pass through the bulk lane (`queue.rs`).

  A frame given to `send` waits in its call until `try_send` appends it to the lane; the receiver takes
  frames from the front. `step_effect` says what one access does to the frames that wait and to the
  ones that entered, and `step_fifo` that frames leave the lane in the order they entered it.
-/
import RemoteX11.Queue.System

namespace RemoteX11.Queue

open RemoteX11.Lib RemoteX11.Protocol

/-- The frame of a call that has not pushed it and may still do so. -/
def SendCall.waiting (c : SendCall) : Option Frame :=
  match c.phase with
  | .enabled _ => some c.frame
  | .admitted _ => some c.frame
  | .parked _ => some c.frame
  | _ => none

@[simp] theorem SendCall.waiting_notified (c : SendCall) : c.notified.waiting = c.waiting := by
  obtain ⟨frame, phase⟩ := c
  rcases phase with w | w | - | w | - | - | - <;> rfl

namespace State

/-- The frames of the calls that may still push, by call number. -/
def waiting (s : State) : List Frame := s.sends.filterMap SendCall.waiting

/-- The frames on the bulk lane, first out first. -/
def queued (s : State) : List Frame := s.lanes.bulk.map Prod.fst

/-- The frames a step appended to the bulk lane. -/
def pushedBy (s t : State) : List Frame := t.queued.drop s.queued.length

/-- The frame a step takes from the bulk lane. -/
def poppedBy (s : State) : Action → List Frame
  | .popBulk => s.queued.take 1
  | _ => []

/-- What an access does to the frames that wait. -/
inductive Effect (s : State) (a : Action) (t : State) : Prop where
  | keeps (hpushed : pushedBy s t = []) (hwaiting : t.waiting = s.waiting)
  | starts (frame : Frame) (ha : a = .start frame) (hpushed : pushedBy s t = [])
      (hwaiting : t.waiting = s.waiting ++ [frame])
  | pushes (frame : Frame) (pre post : List Frame) (hopen : s.rx.closedBulk = false)
      (hpushed : pushedBy s t = [frame]) (hbefore : s.waiting = pre ++ [frame] ++ post)
      (hafter : t.waiting = pre ++ post)
  | cancels (i : Nat) (c : SendCall) (pre post : List Frame) (ha : a = .cancel i)
      (hc : s.sends[i]? = some c) (hframe : c.waiting = some c.frame) (hpushed : pushedBy s t = [])
      (hbefore : s.waiting = pre ++ [c.frame] ++ post) (hafter : t.waiting = pre ++ post)
  | refused (frame : Frame) (pre post : List Frame) (hclosed : s.rx.closedBulk = true)
      (hpushed : pushedBy s t = []) (hbefore : s.waiting = pre ++ [frame] ++ post)
      (hafter : t.waiting = pre ++ post)

theorem pushedBy_of_bulk_eq {s t : State} (h : t.lanes.bulk = s.lanes.bulk) :
    pushedBy s t = [] := by
  simp [pushedBy, queued, h]

@[simp] theorem waiting_notifyWaiters (s : State) : s.notifyWaiters.waiting = s.waiting := by
  simp [waiting, notifyWaiters, List.filterMap_map]

/-- Replacing a call's phase replaces its part of the waiting frames. -/
theorem waiting_setPhase {s : State} {i : Nat} {c : SendCall} (h : s.sends[i]? = some c)
    (p : SendPhase) : ∃ pre post, s.waiting = pre ++ c.waiting.toList ++ post ∧
      (s.setPhase i c p).waiting =
        pre ++ (SendCall.waiting { c with phase := p }).toList ++ post :=
  filterMap_set SendCall.waiting _ h

/-- A call that waits before and after changes nothing. -/
theorem waiting_setPhase_eq {s : State} {i : Nat} {c : SendCall} (h : s.sends[i]? = some c)
    {p : SendPhase} (hp : SendCall.waiting { c with phase := p } = c.waiting) :
    (s.setPhase i c p).waiting = s.waiting := by
  obtain ⟨pre, post, hbefore, hafter⟩ := waiting_setPhase h p
  rw [hafter, hbefore, hp]

/-- The next access of a call. -/
theorem sendStep_effect {s t : State} {i : Nat} {c : SendCall} (hc : s.sends[i]? = some c)
    (a : Action) (h : s.sendStep i c = some t) : Effect s a t := by
  obtain ⟨frame, phase⟩ := c
  have hsplit := fun p => waiting_setPhase hc p
  unfold sendStep at h
  split at h
  · -- the load of `inflight`: the call goes on waiting
    rename_i w hph
    obtain rfl : phase = .enabled w := hph
    split at h
    · obtain rfl := Option.some.inj h
      exact .keeps (pushedBy_of_bulk_eq rfl) (waiting_setPhase_eq hc rfl)
    · obtain rfl := Option.some.inj h
      exact .keeps (pushedBy_of_bulk_eq rfl) (waiting_setPhase_eq hc rfl)
  · rename_i w hph
    obtain rfl : phase = .admitted w := hph
    split at h
    · rename_i hclosed
      obtain rfl := Option.some.inj h
      obtain ⟨pre, post, hbefore, hafter⟩ := hsplit (.returnedErr frame)
      exact .refused frame pre post hclosed (pushedBy_of_bulk_eq rfl) hbefore
        (by simpa [SendCall.waiting] using hafter)
    · split at h
      · obtain rfl := Option.some.inj h
        exact .keeps (pushedBy_of_bulk_eq rfl) (waiting_setPhase_eq hc rfl)
      · rename_i hclosed hroom
        obtain rfl := Option.some.inj h
        obtain ⟨pre, post, hbefore, hafter⟩ := hsplit .pushed
        refine .pushes frame pre post (by simpa using hclosed) ?_ hbefore
          (hafter.trans (by simp [SendCall.waiting]))
        simp [pushedBy, queued, setPhase, Lanes.pushBulk]
  · rename_i hph
    obtain rfl : phase = .pushed := hph
    obtain rfl := Option.some.inj h
    exact .keeps (pushedBy_of_bulk_eq rfl) (waiting_setPhase_eq hc rfl)
  · rename_i hph
    obtain rfl : phase = .parked true := hph
    obtain rfl := Option.some.inj h
    exact .keeps (pushedBy_of_bulk_eq rfl) (waiting_setPhase_eq hc rfl)
  all_goals contradiction

/-- A new call waits with its frame. -/
theorem start_effect {s t : State} {frame : Frame} (h : s.step (.start frame) = some t) :
    t.rx = s.rx ∧ pushedBy s t = [] ∧ t.waiting = s.waiting ++ [frame] := by
  obtain rfl := Option.some.inj h
  exact ⟨rfl, pushedBy_of_bulk_eq rfl, by simp [waiting, SendCall.waiting]⟩

/-- **One access.** What a step does to the frames that wait and to those that entered the lane. -/
theorem step_effect {s t : State} {a : Action} (h : s.step a = some t) : Effect s a t := by
  cases a with
  | start frame =>
    obtain ⟨-, hpushed, hwaiting⟩ := start_effect h
    exact .starts frame rfl hpushed hwaiting
  | send i =>
    simp only [step] at h
    split at h
    · rename_i c hc
      exact sendStep_effect hc _ h
    · contradiction
  | cancel i =>
    simp only [step] at h
    split at h
    · rename_i frame w hc
      obtain rfl := Option.some.inj h
      obtain ⟨pre, post, hbefore, hafter⟩ := waiting_setPhase hc .cancelled
      exact .cancels i _ pre post rfl hc rfl (pushedBy_of_bulk_eq rfl) hbefore
        (hafter.trans (by simp [SendCall.waiting]))
    · contradiction
  | pushPriority frame =>
    simp only [step] at h
    split at h
    all_goals
      obtain rfl := Option.some.inj h
      exact .keeps (pushedBy_of_bulk_eq rfl) rfl
  | _ =>
    -- no call moves, and the lane gets no longer
    simp only [step] at h
    split at h
    all_goals first
      | contradiction
      | obtain rfl := Option.some.inj h
        first
        | exact .keeps (pushedBy_of_bulk_eq rfl) rfl
        | exact .keeps (pushedBy_of_bulk_eq rfl) (waiting_notifyWaiters s)
        | exact .keeps (by simp [pushedBy, queued, *]) rfl

/-- A call touches neither the receiver nor the front of the lane. -/
theorem sendStep_queued {s t : State} {i : Nat} {c : SendCall} (h : s.sendStep i c = some t) :
    t.rx = s.rx ∧ s.queued <+: t.queued := by
  unfold sendStep at h
  split at h
  · split at h
    all_goals
      obtain rfl := Option.some.inj h
      exact ⟨rfl, List.prefix_rfl⟩
  · split at h
    · obtain rfl := Option.some.inj h
      exact ⟨rfl, List.prefix_rfl⟩
    · split at h
      · obtain rfl := Option.some.inj h
        exact ⟨rfl, List.prefix_rfl⟩
      · obtain rfl := Option.some.inj h
        refine ⟨rfl, ?_⟩
        simp [queued, setPhase, Lanes.pushBulk]
  · obtain rfl := Option.some.inj h
    exact ⟨rfl, List.prefix_rfl⟩
  · obtain rfl := Option.some.inj h
    exact ⟨rfl, List.prefix_rfl⟩
  all_goals contradiction

/-- **First in, first out.** Until the receiver half of the bulk channel is dropped, frames enter at
    the end and leave at the front; it is not reopened. -/
theorem step_fifo {s t : State} {a : Action} (h : s.step a = some t)
    (ht : t.rx.closedBulk = false) : s.rx.closedBulk = false ∧
      s.queued ++ pushedBy s t = poppedBy s a ++ t.queued := by
  -- an access that leaves the receiver where it is and only appends
  have happend : ∀ {t : State}, t.rx.closedBulk = false → t.rx = s.rx → s.queued <+: t.queued →
      s.rx.closedBulk = false ∧ s.queued ++ pushedBy s t = t.queued := by
    intro t ht hrx hpre
    refine ⟨hrx ▸ ht, ?_⟩
    obtain ⟨rest, hrest⟩ := hpre
    unfold pushedBy
    rw [← hrest, List.drop_left]
  have hsame : ∀ {t : State}, t.lanes.bulk = s.lanes.bulk → s.queued ++ pushedBy s t = t.queued := by
    intro t hbulk
    rw [pushedBy_of_bulk_eq hbulk, List.append_nil, queued, queued, hbulk]
  cases a with
  | start frame =>
    obtain rfl := Option.some.inj h
    exact happend ht rfl List.prefix_rfl
  | send i =>
    simp only [step] at h
    split at h
    · obtain ⟨hrx, hpre⟩ := sendStep_queued h
      exact happend ht hrx hpre
    · contradiction
  | cancel i =>
    simp only [step] at h
    split at h
    · obtain rfl := Option.some.inj h
      exact happend ht rfl List.prefix_rfl
    · contradiction
  | pushPriority frame =>
    simp only [step] at h
    split at h
    all_goals
      obtain rfl := Option.some.inj h
      exact happend ht rfl List.prefix_rfl
  | popBulk =>
    simp only [step] at h
    split at h
    · rename_i frame size rest hrx hbulk
      obtain rfl := Option.some.inj h
      refine ⟨by rw [hrx]; rfl, ?_⟩
      simp [pushedBy, poppedBy, queued, hbulk]
    · contradiction
  | closeBulk =>
    simp only [step] at h
    split at h
    · obtain rfl := Option.some.inj h
      exact absurd ht (by simp [RxPhase.closedBulk])
    · contradiction
  | closePriority =>
    simp only [step] at h
    split at h
    · obtain rfl := Option.some.inj h
      exact absurd ht (by simp [RxPhase.closedBulk])
    · contradiction
  | _ =>
    simp only [step] at h
    split at h
    all_goals first
      | contradiction
      | obtain rfl := Option.some.inj h
        first
        | exact happend ht rfl List.prefix_rfl
        | exact ⟨by simp [*, RxPhase.closedBulk], hsame rfl⟩

/-- Nothing is taken from a closed bulk channel. -/
theorem step_popped {s t : State} {a : Action} (h : s.step a = some t)
    (ht : t.rx.closedBulk = true) : poppedBy s a = [] := by
  by_cases ha : a = .popBulk
  · subst ha
    simp only [step] at h
    split at h
    · obtain rfl := Option.some.inj h
      contradiction
    · contradiction
  · unfold poppedBy
    split
    · contradiction
    · rfl

end State

end RemoteX11.Queue
