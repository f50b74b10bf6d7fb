/-
  Does the byte budget bound the bulk lane (`queue.rs`)?

  `send` checks its frame against `inflight`, pushes it and adds its size in three accesses, and the
  check reserves nothing. So two calls that check before either has added both find room, and the lane
  holds more than the budget although no frame is larger. What decides is whether the check would still
  pass at the push (`PushFits`): the lane is within its budget in all states of a run if and only if
  every push of the run fits (`lane_bounded_iff`). Calls that do not overlap between their load and their
  `fetch_add` keep within it (`withinBudget_of_loadsAlone`), whatever the receiver does.
-/
import RemoteX11.Queue.Accounting
import Mathlib.Algebra.Order.BigOperators.Group.List
import Mathlib.Algebra.Order.Group.Nat

namespace RemoteX11.Queue

open RemoteX11.Lib RemoteX11.Protocol

/-- The budget check of `send`, made on the bytes in the lane. -/
def Lanes.fits (q : Lanes) (size : Nat) : Bool := { q with inflight := q.queuedBytes }.room size

theorem Lanes.fits_iff (q : Lanes) (size : Nat) :
    q.fits size = true ↔ q.queuedBytes = 0 ∨ q.queuedBytes + size ≤ q.budget := by
  simp [Lanes.fits, Lanes.room]

theorem Lanes.queuedBytes_pushBulk (q : Lanes) (frame : Frame) (size : Nat) :
    (q.pushBulk frame size).queuedBytes = q.queuedBytes + size := by
  simp [Lanes.queuedBytes, Lanes.pushBulk]

/-- No frame of the lane is charged for more than the whole lane. -/
theorem Lanes.le_queuedBytes {q : Lanes} {e : Frame × Nat} (he : e ∈ q.bulk) :
    e.2 ≤ q.queuedBytes :=
  List.le_sum_of_mem (List.mem_map_of_mem he)

theorem SendCall.size_pos (c : SendCall) : 0 < c.size := by
  unfold SendCall.size Frame.encodedSize frameHeaderSize
  omega

namespace State

/-- The lane holds no more than the budget, or no more than one of its frames. -/
def WithinBudget (s : State) : Prop :=
  s.lanes.queuedBytes ≤ s.lanes.budget ∨ ∃ e ∈ s.lanes.bulk, s.lanes.queuedBytes ≤ e.2

/-- A `try_send` that pushes its frame would pass the check of `send` on what is in the lane now. -/
def PushFits (s : State) : Action → Prop
  | .send i =>
    match s.sends[i]? with
    | some ⟨frame, .admitted _⟩ =>
      s.rx.closedBulk = false → s.lanes.bulk.length < s.lanes.frameCapacity →
        s.lanes.fits frame.encodedSize = true
    | _ => True
  | _ => True

/-! ## Pushes that fit -/

/-- What is taken from the lane leaves it within its budget. -/
theorem WithinBudget.pop {s t : State} (hs : s.WithinBudget) {e : Frame × Nat}
    (hbulk : s.lanes.bulk = e :: t.lanes.bulk) (hbudget : t.lanes.budget = s.lanes.budget) :
    t.WithinBudget := by
  have hsum : s.lanes.queuedBytes = e.2 + t.lanes.queuedBytes := by
    simp only [Lanes.queuedBytes, hbulk, List.map_cons, List.sum_cons]
  unfold WithinBudget at hs ⊢
  rw [hbudget]
  obtain hle | ⟨x, hx, hle⟩ := hs
  · left
    omega
  · rw [hbulk] at hx
    obtain rfl | hx := List.mem_cons.mp hx
    · left
      omega
    · right
      exact ⟨x, hx, by omega⟩

/-- **The push.** The lane is within its budget afterwards if and only if the frame fitted. -/
theorem withinBudget_push {s t : State} (frame : Frame) {size : Nat} (hsize : 0 < size)
    (ht : t.lanes = s.lanes.pushBulk frame size) :
    t.WithinBudget ↔ s.lanes.fits size = true := by
  have hsum : t.lanes.queuedBytes = s.lanes.queuedBytes + size := by
    rw [ht, Lanes.queuedBytes_pushBulk]
  have hbudget : t.lanes.budget = s.lanes.budget := by rw [ht]; rfl
  have hmem : ∀ e, e ∈ t.lanes.bulk ↔ e ∈ s.lanes.bulk ∨ e = (frame, size) := by
    simp [ht, Lanes.pushBulk]
  rw [Lanes.fits_iff]
  unfold WithinBudget
  rw [hsum, hbudget]
  constructor
  · rintro (hle | ⟨e, he, hle⟩)
    · exact .inr hle
    · obtain he | rfl := (hmem e).mp he
      · have := Lanes.le_queuedBytes he
        omega
      · left
        show s.lanes.queuedBytes = 0
        have : s.lanes.queuedBytes + size ≤ size := hle
        omega
  · rintro (hzero | hle)
    · exact .inr ⟨(frame, size), (hmem _).mpr (.inr rfl), by show _ ≤ size; omega⟩
    · exact .inl hle

theorem sendStep_withinBudget {s t : State} {i : Nat} {c : SendCall} (hs : s.WithinBudget)
    (hc : s.sends[i]? = some c) (h : s.sendStep i c = some t) :
    t.WithinBudget ↔ s.PushFits (.send i) := by
  obtain ⟨frame, phase⟩ := c
  simp only [PushFits, hc]
  unfold sendStep at h
  cases phase with
  | admitted w =>
    simp only at h ⊢
    split at h
    · obtain rfl := Option.some.inj h
      rename_i hclosed
      exact iff_of_true hs fun hopen => absurd hclosed (by simp [hopen])
    · split at h
      · obtain rfl := Option.some.inj h
        rename_i hfull
        exact iff_of_true hs fun _ hroom => absurd hfull (by omega)
      · rename_i hopen hfull
        obtain rfl := Option.some.inj h
        rw [withinBudget_push frame (SendCall.size_pos ⟨frame, .admitted w⟩) rfl]
        simp only [SendCall.size]
        constructor
        · exact fun hfits _ _ => hfits
        · exact fun hfits => hfits (by simpa using hopen) (by omega)
  | enabled w =>
    simp only at h ⊢
    split at h
    · obtain rfl := Option.some.inj h
      exact iff_of_true hs trivial
    · obtain rfl := Option.some.inj h
      exact iff_of_true hs trivial
  | parked w =>
    cases w with
    | true =>
      obtain rfl := Option.some.inj h
      exact iff_of_true hs trivial
    | false => contradiction
  | pushed =>
    obtain rfl := Option.some.inj h
    exact iff_of_true hs trivial
  | returnedOk => contradiction
  | returnedErr _ => contradiction
  | cancelled => contradiction

/-- **One step** within the budget stays there if and only if it is no push that does not fit. -/
theorem step_withinBudget {s t : State} {a : Action} (hs : s.WithinBudget)
    (h : s.step a = some t) : t.WithinBudget ↔ s.PushFits a := by
  cases a with
  | send i =>
    simp only [step] at h
    split at h
    · exact sendStep_withinBudget hs ‹_› h
    · contradiction
  | popBulk =>
    simp only [step] at h
    split at h
    · rename_i hbulk
      obtain rfl := Option.some.inj h
      exact iff_of_true (hs.pop hbulk rfl) trivial
    · contradiction
  | closeBulk =>
    simp only [step] at h
    split at h
    · obtain rfl := Option.some.inj h
      exact iff_of_true (.inl (Nat.zero_le _)) trivial
    · contradiction
  | start frame =>
    obtain rfl := Option.some.inj h
    exact iff_of_true hs trivial
  | cancel i | addBacklog | release | notify | popPriority | releasePriority | dropReceiver
  | closePriority =>
    simp only [step] at h
    split at h
    all_goals first
      | contradiction
      | (obtain rfl := Option.some.inj h
         exact iff_of_true hs trivial)
  | pushPriority frame =>
    simp only [step] at h
    split at h
    · obtain rfl := Option.some.inj h
      exact iff_of_true hs trivial
    · obtain rfl := Option.some.inj h
      exact iff_of_true hs trivial

/-! ## Calls that load alone -/

end State

/-- A call that has read the counter and not yet added to it. -/
def SendPhase.overlaps : SendPhase → Bool
  | .admitted _ => true
  | .pushed => true
  | _ => false

/-- Number of calls between their load and their `fetch_add`, as a sum over the calls. -/
def SendCall.overlap (c : SendCall) : Nat := if c.phase.overlaps then 1 else 0

/-- Bytes that a call has found room for and not yet pushed. -/
def SendCall.claim (c : SendCall) : Nat :=
  match c.phase with
  | .admitted _ => c.size
  | _ => 0

namespace State

/-- No call loads the counter while another is between its load and its `fetch_add`. -/
def LoadsAlone (s : State) : Action → Prop
  | .send i =>
    match s.sends[i]? with
    | some ⟨_, .enabled _⟩ => ∀ d ∈ s.sends, d.phase.overlaps = false
    | _ => True
  | _ => True

instance (s : State) (a : Action) : Decidable (s.LoadsAlone a) :=
  match a with
  | .send i =>
    match hc : s.sends[i]? with
    | some ⟨_, .enabled _⟩ =>
      decidable_of_iff (∀ d ∈ s.sends, d.phase.overlaps = false) (by simp only [LoadsAlone, hc])
    | none | some ⟨_, .admitted _⟩ | some ⟨_, .pushed⟩ | some ⟨_, .parked _⟩ | some ⟨_, .returnedOk⟩
    | some ⟨_, .returnedErr _⟩ | some ⟨_, .cancelled⟩ => isTrue (by simp only [LoadsAlone, hc])
  | .start _ | .cancel _ | .pushPriority _ | .addBacklog | .popBulk | .release | .notify
  | .popPriority | .releasePriority | .dropReceiver | .closeBulk | .closePriority => isTrue trivial

theorem claim_notified (c : SendCall) : c.notified.claim = c.claim := by
  rcases c with ⟨frame, phase⟩
  cases phase <;> rfl

theorem overlap_notified (c : SendCall) : c.notified.overlap = c.overlap := by
  rcases c with ⟨frame, phase⟩
  cases phase <;> rfl

/-- One call at a time holds a reading of the counter; while it does, its frame fits the lane. -/
structure Serial (s : State) : Prop where
  overlap_le : total SendCall.overlap s.sends ≤ 1
  covered : s.held ≤ s.charged
  claim_fits : total SendCall.claim s.sends = 0 ∨ s.lanes.queuedBytes = 0 ∨
    s.lanes.queuedBytes + total SendCall.claim s.sends ≤ s.lanes.budget

/-- When no call overlaps, none holds bytes of its own. -/
theorem quiet_of_overlap {l : List SendCall} (h : ∀ d ∈ l, d.phase.overlaps = false) :
    total SendCall.claim l = 0 ∧ total SendCall.unadded l = 0 := by
  have hzero : ∀ d ∈ l, d.claim = 0 ∧ d.unadded = 0 := by
    rintro ⟨frame, phase⟩ hd
    have hover := h _ hd
    cases phase with
    | admitted w => exact absurd hover (by simp [SendPhase.overlaps])
    | pushed => exact absurd hover (by simp [SendPhase.overlaps])
    | enabled _ => exact ⟨rfl, rfl⟩
    | parked _ => exact ⟨rfl, rfl⟩
    | returnedOk => exact ⟨rfl, rfl⟩
    | returnedErr _ => exact ⟨rfl, rfl⟩
    | cancelled => exact ⟨rfl, rfl⟩
  exact ⟨total_eq_zero fun d hd => (hzero d hd).1, total_eq_zero fun d hd => (hzero d hd).2⟩

theorem overlaps_of_total_zero {l : List SendCall} (h : total SendCall.overlap l = 0) :
    ∀ d ∈ l, d.phase.overlaps = false := by
  intro d hd
  have hle : d.overlap ≤ total SendCall.overlap l := List.le_sum_of_mem (List.mem_map_of_mem hd)
  have hzero : d.overlap = 0 := by omega
  simpa [SendCall.overlap] using hzero

/-- The call that overlaps is the only one with bytes of its own. -/
theorem total_claim_of_overlaps {l : List SendCall} {i : Nat} {c : SendCall} (hc : l[i]? = some c)
    (hone : total SendCall.overlap l ≤ 1) (hover : c.phase.overlaps = true) :
    total SendCall.claim l = c.claim := by
  have hset := total_set SendCall.overlap { c with phase := .returnedOk } hc
  have h1 : c.overlap = 1 := by simp [SendCall.overlap, hover]
  have h0 : SendCall.overlap { c with phase := .returnedOk } = 0 := rfl
  have hrest : total SendCall.overlap (l.set i { c with phase := .returnedOk }) = 0 := by omega
  have hclaim := (quiet_of_overlap (overlaps_of_total_zero hrest)).1
  have := total_set SendCall.claim { c with phase := .returnedOk } hc
  have hc0 : SendCall.claim { c with phase := .returnedOk } = 0 := rfl
  omega

/-- A call that gives up its reading, or never had one, leaves the others as they are. -/
theorem Serial.setPhase {s : State} {i : Nat} {c : SendCall} {p : SendPhase} (hs : s.Serial)
    (hc : s.sends[i]? = some c) (hu : c.unadded = 0) (hp : p.overlaps = false) :
    (s.setPhase i c p).Serial := by
  have hpush : p ≠ .pushed := by
    rintro rfl
    contradiction
  have hover := total_set SendCall.overlap { c with phase := p } hc
  have hclaim := total_set SendCall.claim { c with phase := p } hc
  have hover0 : SendCall.overlap { c with phase := p } = 0 := by simp [SendCall.overlap, hp]
  have hclaim0 : SendCall.claim { c with phase := p } = 0 := by
    cases p with
    | admitted w => contradiction
    | _ => rfl
  refine ⟨?_, ?_, ?_⟩
  · show total SendCall.overlap (s.sends.set i { c with phase := p }) ≤ 1
    have := hs.overlap_le
    omega
  · have := (setPhase_moves hc hu hpush).1
    have := hs.covered
    omega
  · show total SendCall.claim (s.sends.set i { c with phase := p }) = 0 ∨
      s.lanes.queuedBytes = 0 ∨ s.lanes.queuedBytes +
        total SendCall.claim (s.sends.set i { c with phase := p }) ≤ s.lanes.budget
    have := hs.claim_fits
    omega

/-- A call that loads alone and finds room has room in the lane too. -/
theorem Serial.admit {s : State} {i : Nat} {c : SendCall} {w : Bool} (hs : s.Serial)
    (hc : s.sends[i]? = some c) (hp : c.phase = .enabled w)
    (halone : ∀ d ∈ s.sends, d.phase.overlaps = false) (hroom : s.lanes.room c.size = true) :
    (s.setPhase i c (.admitted w)).Serial := by
  obtain ⟨hclaim, hunadded⟩ := quiet_of_overlap halone
  have hzero : total SendCall.overlap s.sends = 0 := by
    apply total_eq_zero
    intro d hd
    simp [SendCall.overlap, halone d hd]
  have hover := total_set SendCall.overlap { c with phase := .admitted w } hc
  have hover1 : SendCall.overlap { c with phase := .admitted w } = 1 := rfl
  have hset := total_set SendCall.claim { c with phase := .admitted w } hc
  have hclaim1 : SendCall.claim { c with phase := .admitted w } = c.size := rfl
  have hu : c.unadded = 0 := by simp [SendCall.unadded, hp]
  have hcovered := hs.covered
  have hqueued : s.lanes.queuedBytes ≤ s.lanes.inflight := by
    simp only [held, charged] at hcovered
    omega
  have hroom' : s.lanes.inflight = 0 ∨ s.lanes.inflight + c.size ≤ s.lanes.budget := by
    simpa [Lanes.room] using hroom
  refine ⟨?_, ?_, ?_⟩
  · show total SendCall.overlap (s.sends.set i { c with phase := .admitted w }) ≤ 1
    omega
  · have := (setPhase_moves (p := .admitted w) hc hu (by simp)).1
    omega
  · right
    show s.lanes.queuedBytes = 0 ∨ s.lanes.queuedBytes +
      total SendCall.claim (s.sends.set i { c with phase := .admitted w }) ≤ s.lanes.budget
    omega

theorem sendStep_serial {s t : State} {i : Nat} {c : SendCall} (hs : s.Serial)
    (hc : s.sends[i]? = some c) (halone : s.LoadsAlone (.send i)) (h : s.sendStep i c = some t) :
    t.Serial := by
  obtain ⟨frame, phase⟩ := c
  have hmoves := (sendStep_moves hc h).1.1
  have hcovered := hs.covered
  unfold sendStep at h
  cases phase with
  | enabled w =>
    simp only [LoadsAlone, hc] at halone
    simp only at h
    split at h
    · obtain rfl := Option.some.inj h
      exact hs.admit hc rfl halone ‹_›
    · obtain rfl := Option.some.inj h
      exact hs.setPhase hc rfl rfl
  | admitted w =>
    simp only at h
    split at h
    · obtain rfl := Option.some.inj h
      exact hs.setPhase hc rfl rfl
    · split at h
      · obtain rfl := Option.some.inj h
        exact hs.setPhase hc rfl rfl
      · -- the push: the reading stays with the call, the claim is spent
        obtain rfl := Option.some.inj h
        have hover := total_set SendCall.overlap ⟨frame, .pushed⟩ hc
        have hclaim := total_set SendCall.claim ⟨frame, .pushed⟩ hc
        have hall := total_claim_of_overlaps hc hs.overlap_le rfl
        have h1 : SendCall.overlap ⟨frame, .admitted w⟩ = SendCall.overlap ⟨frame, .pushed⟩ := rfl
        have h0 : SendCall.claim ⟨frame, .pushed⟩ = 0 := rfl
        refine ⟨?_, by omega, .inl ?_⟩
        · show total SendCall.overlap (s.sends.set i ⟨frame, .pushed⟩) ≤ 1
          have := hs.overlap_le
          omega
        · show total SendCall.claim (s.sends.set i ⟨frame, .pushed⟩) = 0
          omega
  | pushed =>
    obtain rfl := Option.some.inj h
    have hover := total_set SendCall.overlap ⟨frame, .returnedOk⟩ hc
    have hclaim := total_set SendCall.claim ⟨frame, .returnedOk⟩ hc
    have h0 : SendCall.overlap ⟨frame, .returnedOk⟩ = 0 := rfl
    have h1 : SendCall.claim ⟨frame, .returnedOk⟩ = SendCall.claim ⟨frame, .pushed⟩ := rfl
    refine ⟨?_, by omega, ?_⟩
    · show total SendCall.overlap (s.sends.set i ⟨frame, .returnedOk⟩) ≤ 1
      have := hs.overlap_le
      omega
    · show total SendCall.claim (s.sends.set i ⟨frame, .returnedOk⟩) = 0 ∨
        s.lanes.queuedBytes = 0 ∨ s.lanes.queuedBytes +
          total SendCall.claim (s.sends.set i ⟨frame, .returnedOk⟩) ≤ s.lanes.budget
      have := hs.claim_fits
      omega
  | parked w =>
    cases w with
    | true =>
      obtain rfl := Option.some.inj h
      exact hs.setPhase hc rfl rfl
    | false => contradiction
  | returnedOk => contradiction
  | returnedErr _ => contradiction
  | cancelled => contradiction

/-- A step that changes no call and adds nothing to the lane. -/
theorem Serial.of_calls {s t : State} (hs : s.Serial)
    (hsends : t.sends = s.sends ∨ t.sends = s.sends.map SendCall.notified)
    (hcovered : t.held ≤ t.charged) (hqueued : t.lanes.queuedBytes ≤ s.lanes.queuedBytes)
    (hbudget : t.lanes.budget = s.lanes.budget) : t.Serial := by
  have hover : total SendCall.overlap t.sends = total SendCall.overlap s.sends := by
    rcases hsends with h | h
    · rw [h]
    · rw [h, total_map _ _ _ overlap_notified]
  have hclaim : total SendCall.claim t.sends = total SendCall.claim s.sends := by
    rcases hsends with h | h
    · rw [h]
    · rw [h, total_map _ _ _ claim_notified]
  refine ⟨by rw [hover]; exact hs.overlap_le, hcovered, ?_⟩
  rw [hclaim, hbudget]
  have := hs.claim_fits
  omega

/-- **One step.** Calls that load alone stay serial. -/
theorem step_serial {s t : State} {a : Action} (hs : s.Serial) (halone : s.LoadsAlone a)
    (h : s.step a = some t) : t.Serial := by
  have hcovered := hs.covered
  cases a with
  | start frame =>
    obtain rfl := Option.some.inj h
    have hover : SendCall.overlap ⟨frame, .enabled false⟩ = 0 := rfl
    have hclaim : SendCall.claim ⟨frame, .enabled false⟩ = 0 := rfl
    have hunadded : SendCall.unadded ⟨frame, .enabled false⟩ = 0 := rfl
    refine ⟨?_, ?_, ?_⟩
    · simpa [hover] using hs.overlap_le
    · simpa [held, charged, hunadded] using hcovered
    · simpa [hclaim] using hs.claim_fits
  | send i =>
    simp only [step] at h
    split at h
    · exact sendStep_serial hs ‹_› halone h
    · contradiction
  | cancel i =>
    simp only [step] at h
    split at h
    · obtain rfl := Option.some.inj h
      exact hs.setPhase ‹_› rfl rfl
    · contradiction
  | pushPriority frame =>
    simp only [step] at h
    split at h
    · obtain rfl := Option.some.inj h
      exact hs
    · obtain rfl := Option.some.inj h
      exact hs.of_calls (.inl rfl) hcovered (Nat.le_refl _) rfl
  | addBacklog =>
    simp only [step] at h
    split at h
    · contradiction
    · obtain rfl := Option.some.inj h
      exact hs.of_calls (.inl rfl) hcovered (Nat.le_refl _) rfl
  | popBulk =>
    have hmoves := (popBulk_drift h).bulk
    simp only [step] at h
    split at h
    · rename_i hbulk
      obtain rfl := Option.some.inj h
      refine hs.of_calls (.inl rfl) (by omega) ?_ rfl
      simp only [Lanes.queuedBytes, hbulk, List.map_cons, List.sum_cons]
      omega
    · contradiction
  | release =>
    have hmoves := (release_drift h).bulk
    simp only [step] at h
    split at h
    · obtain rfl := Option.some.inj h
      exact hs.of_calls (.inl rfl) (by omega) (Nat.le_refl _) rfl
    · contradiction
  | notify =>
    simp only [step] at h
    split at h
    · rename_i hrx
      obtain rfl := Option.some.inj h
      refine hs.of_calls (.inr rfl) ?_ (Nat.le_refl _) rfl
      simpa [held, charged, notifyWaiters, hrx, RxPhase.unreleased,
        total_map _ _ _ unadded_notified] using hcovered
    · contradiction
  | popPriority =>
    have hmoves := (popPriority_drift h).bulk
    simp only [step] at h
    split at h
    · obtain rfl := Option.some.inj h
      exact hs.of_calls (.inl rfl) (by omega) (Nat.le_refl _) rfl
    · contradiction
  | releasePriority =>
    have hmoves := (releasePriority_drift h).bulk
    simp only [step] at h
    split at h
    · obtain rfl := Option.some.inj h
      exact hs.of_calls (.inl rfl) (by omega) (Nat.le_refl _) rfl
    · contradiction
  | dropReceiver =>
    simp only [step] at h
    split at h
    · rename_i hrx
      obtain rfl := Option.some.inj h
      refine hs.of_calls (.inr rfl) ?_ (Nat.le_refl _) rfl
      simpa [held, charged, notifyWaiters, hrx, RxPhase.unreleased,
        total_map _ _ _ unadded_notified] using hcovered
    · contradiction
  | closeBulk =>
    simp only [step] at h
    split at h
    · obtain rfl := Option.some.inj h
      exact hs.of_calls (.inl rfl) (Nat.zero_le _) (Nat.zero_le _) rfl
    · contradiction
  | closePriority =>
    simp only [step] at h
    split at h
    · rename_i hrx
      obtain rfl := Option.some.inj h
      refine hs.of_calls (.inl rfl) ?_ (Nat.le_refl _) rfl
      simpa [held, charged, hrx, RxPhase.unreleased, Lanes.queuedBytes] using hcovered
    · contradiction

/-- In a serial state a call pushes only what fits. -/
theorem Serial.pushFits {s : State} (hs : s.Serial) (a : Action) : s.PushFits a := by
  cases a with
  | send i =>
    simp only [PushFits]
    split
    · rename_i frame w hc
      intro _ _
      have hall := total_claim_of_overlaps hc hs.overlap_le rfl
      have hsize := SendCall.size_pos ⟨frame, .admitted w⟩
      have hclaim : SendCall.claim ⟨frame, .admitted w⟩ = frame.encodedSize := rfl
      have hsize' : SendCall.size ⟨frame, .admitted w⟩ = frame.encodedSize := rfl
      rw [Lanes.fits_iff]
      have := hs.claim_fits
      omega
    · trivial
  | _ => trivial

theorem serial_init (frameCapacity budgetBytes : Nat) :
    (init frameCapacity budgetBytes).Serial where
  overlap_le := Nat.zero_le _
  covered := Nat.le_refl _
  claim_fits := .inl rfl

/-- **Whole runs.** Calls that do not overlap push only what fits. -/
theorem pushFits_of_loadsAlone {s : State} {as : List Action} (hs : s.Serial)
    (h : Meets step LoadsAlone s as) : Meets step PushFits s as := by
  induction as generalizing s with
  | nil => trivial
  | cons a as ih => exact ⟨hs.pushFits a, fun t ht => ih (step_serial hs h.1 ht) (h.2 t ht)⟩

/-! ## The budget over a run -/

/-- Calls that do not overlap keep the lane within its budget, in every state of the run and whatever the receiver
does: `PushFits` is not asked for, it follows. -/
theorem withinBudget_of_loadsAlone {frameCapacity budgetBytes : Nat} {as pre : List Action} {t : State}
    (h : Meets step LoadsAlone (init frameCapacity budgetBytes) as) (hpre : pre <+: as)
    (hr : run step (init frameCapacity budgetBytes) pre = some t) : t.WithinBudget := by
  have hfits : Meets step PushFits (init frameCapacity budgetBytes) pre := by
    obtain ⟨rest, rfl⟩ := hpre
    exact ((meets_append hr).mp (pushFits_of_loadsAlone (serial_init frameCapacity budgetBytes) h)).1
  exact run_inv (fun _ _ _ hs hg hstep => (step_withinBudget hs hstep).mpr hg) (.inl (Nat.zero_le _)) hfits hr

/-- **The byte budget** bounds the bulk lane, up to one frame that is larger, in all states of a run if
and only if every push of the run fits what is in the lane by then; and every push does when no call
loads the counter while another is between its load and its `fetch_add`. -/
theorem lane_bounded_iff (frameCapacity budgetBytes : Nat) (as : List Action) (s : State)
    (hr : run step (init frameCapacity budgetBytes) as = some s) :
    ((∀ pre t, pre <+: as → run step (init frameCapacity budgetBytes) pre = some t →
      t.WithinBudget) ↔ Meets step PushFits (init frameCapacity budgetBytes) as) ∧
    (Meets step LoadsAlone (init frameCapacity budgetBytes) as →
      Meets step PushFits (init frameCapacity budgetBytes) as) := by
  have hinit : (init frameCapacity budgetBytes).WithinBudget := .inl (Nat.zero_le _)
  exact ⟨states_iff_meets (fun _ _ _ => step_withinBudget) hinit hr,
    pushFits_of_loadsAlone (serial_init frameCapacity budgetBytes)⟩

/-- Two heartbeats, one after the other, and a receiver that takes the first. -/
def takingTurns : List Action :=
  [.start .heartbeat, .start .heartbeatAck, .send 0, .send 0, .send 0, .send 1, .popBulk, .release,
    .notify, .send 1, .send 1, .send 1, .send 1]

/-- Two calls that find the lane empty before either pushes. -/
def checkTogether : List Action :=
  [.start .heartbeat, .start .heartbeatAck, .send 0, .send 1, .send 0, .send 1]

theorem lane_bounded_iff_turns : ∃ t, run step (init 2048 16) takingTurns = some t ∧
    t.lanes.queuedBytes = 11 ∧ t.WithinBudget := by
  have hr : ∃ t ∈ run step (init 2048 16) takingTurns, t.lanes.queuedBytes = 11 := by decide
  obtain ⟨t, hr, hbytes⟩ := hr
  have h := lane_bounded_iff 2048 16 takingTurns t hr
  exact ⟨t, hr, hbytes, h.1.mpr (h.2 (by decide)) takingTurns t (List.prefix_refl _) hr⟩

/-- Two frames of eleven bytes in a lane with a budget of sixteen: more than the budget, and more than
any frame of the run. -/
theorem check_together_overfills :
    ¬ ∀ (frameCapacity budgetBytes : Nat) (as : List Action) (s : State),
      run step (init frameCapacity budgetBytes) as = some s →
        s.lanes.queuedBytes ≤ s.lanes.budget ∨ ∃ c ∈ s.sends, s.lanes.queuedBytes ≤ c.size := by
  intro h
  have hr := Option.eq_some_of_isSome
    (show (run step (init 2048 16) checkTogether).isSome = true by decide)
  exact absurd (h 2048 16 checkTogether _ hr) (by decide)

end State

end RemoteX11.Queue
