/-
  Is congestion announced before the delivering task parks on a full queue?

  The queue of a channel is bounded by entries and its gauge by bytes. A task that parks has announced
  the congestion only if the bytes trip first: the payload that is charged with the queue full has to
  bring the gauge to `high` (on the client that is the payload that filled the queue, since it is
  enqueued before it is charged). Many small payloads fill the queue on either side with the gauge far
  below `high` (`small_payloads_park`).

  The announcement must also last while the task is parked: neither the pump nor a re-attach may open
  the latch over a full queue, and no old resume report may be recorded over a taken latch.
-/
import RemoteX11.Flow.Delivery

namespace RemoteX11.Flow

open RemoteX11.Lib RemoteX11.Protocol

/-- `FlowDefaults::PAUSE_BYTES`. -/
def pauseBytes : Nat := 2 * 1024 * 1024

/-- `FlowDefaults::RESUME_BYTES`. -/
def resumeBytes : Nat := 256 * 1024

namespace Channel

/-- The queue has no room for another payload. -/
def Full (s : Channel) : Prop := channelBuffer ≤ s.queue.length

instance (s : Channel) : Decidable s.Full := inferInstanceAs (Decidable (_ ≤ _))

/-- The delivering task waits for room in the queue. -/
def Parked (s : Channel) : Prop :=
  match s.delivery with
  | .enqueueing _ => s.pump ≠ .stopped ∧ s.Full
  | _ => False

/-- The gauge is latched and the advertiser has the pause. -/
def Announced (id : ConnectionId) (s : Channel) : Prop :=
  s.meter.latched = true ∧ s.advertiser.isPaused id = true

/-- Nothing that was put on the queue, or is about to be, has its charge still to come. -/
def AllCharged : Side → Delivery → Bool
  | .server, .advertising _ => true
  | .server, .enqueueing _ => true
  | .server, _ => false
  | .client, .charging _ => false
  | .client, .latching _ => false
  | .client, _ => true

/-- The bytes trip before the entries, and the announcement lasts: a payload charged with the queue full
    brings the gauge to `high`, the latch is not opened over a full queue that is charged, and a resume
    report is taken only with the gauge open. -/
def TripsInBytes (side : Side) (s : Channel) (a : ChannelAction) : Prop :=
  match a, s.delivery, s.pump with
  | .delivery, .charging data, _ => s.Full → s.meter.high ≤ s.meter.pending + data.length
  | .pump, delivery, .unlatching => s.Full → AllCharged side delivery = false
  | .reset, delivery, _ => s.Full → AllCharged side delivery = false
  | .report, _, _ => s.meter.latched = false
  | _, _, _ => True

/-! ## The invariant -/

structure ParkingInv (side : Side) (id : ConnectionId) (s : Channel) : Prop where
  /-- a taken latch is advertised, or about to be -/
  advertised : s.meter.latched = true →
    (∃ data, s.delivery = .advertising data) ∨ s.advertiser.isPaused id = true
  reconciling : s.delivery = .reconciling → s.meter.latched = false
  /-- a full queue that is charged has the gauge latched -/
  full : s.Full → AllCharged side s.delivery = true → s.meter.latched = true
  client : side = .client → ¬ Retracts s.delivery

variable {side : Side} {conn : ConnectionId} {s t : Channel}

/-- A taken latch that is advertised, with the delivering task at an ordinary point of its work. -/
theorem ParkingInv.of_advertised
    (hadv : s.meter.latched = true → s.advertiser.isPaused conn = true)
    (hrec : s.delivery ≠ .reconciling) (hretract : ¬ Retracts s.delivery)
    (hfull : s.Full → AllCharged side s.delivery = true → s.meter.latched = true) :
    s.ParkingInv side conn :=
  ⟨fun hl => .inr (hadv hl), fun hd => absurd hd hrec, hfull, fun _ => hretract⟩

/-- Only the server retracts, and what it retracts is not on the queue. -/
theorem ParkingInv.of_retracting
    (hadv : s.meter.latched = true → s.advertiser.isPaused conn = true)
    (hrec : s.delivery ≠ .reconciling) (hcharged : AllCharged .server s.delivery = false) :
    s.ParkingInv .server conn :=
  ⟨fun hl => .inr (hadv hl), fun hd => absurd hd hrec,
    fun _ hc => absurd (hcharged.symm.trans hc) (by simp), fun hc => by simp at hc⟩

theorem ParkingInv.paused (hs : s.ParkingInv side conn)
    (hd : ∀ data, s.delivery ≠ .advertising data) (hl : s.meter.latched = true) :
    s.advertiser.isPaused conn = true := by
  rcases hs.advertised hl with ⟨data, hdata⟩ | hp
  · exact absurd hdata (hd data)
  · exact hp

theorem deliveryStep_parkingInv (hs : s.ParkingInv side conn)
    (hg : s.TripsInBytes side .delivery) (h : s.deliveryStep side conn = some t) :
    t.ParkingInv side conn := by
  have hpaused := hs.paused
  obtain ⟨-, hrec, hfull, hclient⟩ := hs
  unfold deliveryStep at h
  cases hd : s.delivery with
  | idle => simp [hd] at h
  | charging data =>
    simp only [hd] at h hpaused
    simp only [TripsInBytes, hd] at hg
    split at h
    · obtain rfl := Option.some.inj h
      exact .of_advertised (hpaused (by simp)) (by simp) id (by cases side <;> simp [AllCharged])
    · -- below `high`: the queue is not full
      rename_i hlow
      obtain rfl := Option.some.inj h
      exact .of_advertised (hpaused (by simp)) (by cases side <;> simp [afterCharge])
        (by cases side <;> simp [afterCharge, Retracts]) (fun hf _ => absurd (hg hf) hlow)
  | latching data =>
    simp only [hd] at h hpaused
    split at h
    · obtain rfl := Option.some.inj h
      exact ⟨fun _ => .inl ⟨data, rfl⟩, by simp, fun _ _ => rfl, fun _ => id⟩
    · rename_i hcas
      have hl : s.meter.latched = true := by simpa [FlowMeter.latch] using hcas
      obtain rfl := Option.some.inj h
      exact .of_advertised (hpaused (by simp)) (by cases side <;> simp [afterCharge])
        (by cases side <;> simp [afterCharge, Retracts]) (fun _ _ => hl)
  | advertising data =>
    simp only [hd] at h hfull
    obtain rfl := Option.some.inj h
    refine .of_advertised (fun _ => s.advertiser.isPaused_record_pause conn)
      (by cases side <;> simp [afterCharge]) (by cases side <;> simp [afterCharge, Retracts]) ?_
    intro hf _
    exact hfull hf (by cases side <;> rfl)
  | enqueueing data =>
    simp only [hd] at h hpaused hfull
    split at h
    · obtain rfl := Option.some.inj h
      exact .of_retracting (hpaused (by simp)) (by simp) rfl
    · obtain rfl := Option.some.inj h
      exact .of_advertised (hpaused (by simp)) (by simp) id (fun hf _ => hfull hf rfl)
    · split at h
      · split at h <;> obtain rfl := Option.some.inj h
        · exact .of_advertised (hpaused (by simp)) (by simp) id (by simp [AllCharged])
        · exact .of_advertised (hpaused (by simp)) (by simp) id (by simp [AllCharged])
      · contradiction
  | retracting size =>
    simp only [hd] at h hpaused hclient
    cases side
    · obtain rfl := Option.some.inj h
      exact .of_retracting (hpaused (by simp)) (by simp) rfl
    · exact absurd trivial (hclient rfl)
  | retracted after =>
    simp only [hd] at h hpaused hclient
    cases side
    · split at h <;> obtain rfl := Option.some.inj h
      · exact .of_retracting (hpaused (by simp)) (by simp) rfl
      · exact .of_retracting (hpaused (by simp)) (by simp) rfl
    · exact absurd trivial (hclient rfl)
  | retractUnlatching =>
    simp only [hd] at h hclient
    cases side
    · obtain rfl := Option.some.inj h
      exact .of_retracting (fun hl => by simp [FlowMeter.unlatch] at hl) (by simp) rfl
    · exact absurd trivial (hclient rfl)
  | reconciling =>
    have hl := hrec hd
    simp only [hd] at h hfull
    obtain rfl := Option.some.inj h
    refine .of_advertised (fun hl' => absurd (hl.symm.trans hl') (by simp)) (by simp) id ?_
    intro hf hc
    cases side
    · simp [AllCharged] at hc
    · exact hfull hf rfl
  | restating =>
    simp only [hd] at h hpaused hfull
    obtain rfl := Option.some.inj h
    refine .of_advertised (hpaused (by simp)) (by simp) id ?_
    intro hf hc
    cases side
    · simp [AllCharged] at hc
    · exact hfull hf rfl

/-- A step that leaves the delivering task and the advertiser alone and shortens the queue at most. -/
theorem ParkingInv.of_pump (hs : s.ParkingInv side conn) {meter : FlowMeter} {queue : List Bytes}
    {pump : Pump} {reports discharged : Nat} {emitted : List FlowEdge}
    (hmeter : meter.latched = s.meter.latched) (hqueue : queue.length ≤ s.queue.length) :
    ParkingInv side conn { s with
      meter := meter, queue := queue, pump := pump, reports := reports, emitted := emitted,
      discharged := discharged } where
  advertised := fun hl => hs.advertised (hmeter ▸ hl)
  reconciling := fun hd => hmeter.trans (hs.reconciling hd)
  full := fun hf hc => hmeter.trans (hs.full (Nat.le_trans hf hqueue) hc)
  client := hs.client

/-- The latch is opened when no full queue depends on it. -/
theorem ParkingInv.of_open (hs : s.ParkingInv side conn)
    (hg : s.Full → AllCharged side s.delivery = false) {meter : FlowMeter} {pump : Pump}
    (hmeter : meter.latched = false) :
    ParkingInv side conn { s with meter := meter, pump := pump } where
  advertised := fun hl => absurd (hmeter.symm.trans hl) (by simp)
  reconciling := fun _ => hmeter
  full := fun hf hc => absurd ((hg hf).symm.trans hc) (by simp)
  client := hs.client

theorem pumpStep_parkingInv (hs : s.ParkingInv side conn) (hg : s.TripsInBytes side .pump)
    (h : s.pumpStep side conn = some t) : t.ParkingInv side conn := by
  unfold pumpStep at h
  cases hp : s.pump with
  | idle =>
    simp only [hp] at h
    split at h
    · contradiction
    · rename_i data rest hq
      obtain rfl := Option.some.inj h
      exact hs.of_pump rfl (by simp [hq])
  | writing data =>
    simp only [hp] at h
    obtain rfl := Option.some.inj h
    exact hs.of_pump rfl (Nat.le_refl _)
  | discharging size =>
    simp only [hp] at h
    obtain rfl := Option.some.inj h
    exact hs.of_pump rfl (Nat.le_refl _)
  | drained after =>
    simp only [hp] at h
    split at h <;> obtain rfl := Option.some.inj h
    · exact hs.of_pump rfl (Nat.le_refl _)
    · exact hs.of_pump rfl (Nat.le_refl _)
  | unlatching =>
    simp only [TripsInBytes, hp] at hg
    simp only [hp] at h
    split at h
    · split at h <;> obtain rfl := Option.some.inj h
      · exact hs.of_open hg rfl
      · exact hs.of_open hg rfl
    · obtain rfl := Option.some.inj h
      exact hs.of_pump rfl (Nat.le_refl _)
  | resuming =>
    simp only [hp] at h
    obtain rfl := Option.some.inj h
    exact hs.of_pump rfl (Nat.le_refl _)
  | reporting =>
    simp only [hp] at h
    obtain rfl := Option.some.inj h
    exact hs.of_pump rfl (Nat.le_refl _)
  | stopped => simp [hp] at h

theorem step_parkingInv {a : ChannelAction} (hs : s.ParkingInv side conn)
    (hg : s.TripsInBytes side a) (h : s.step side conn a = some t) : t.ParkingInv side conn := by
  cases a with
  | delivery => exact deliveryStep_parkingInv hs hg h
  | pump => exact pumpStep_parkingInv hs hg h
  | deliver data =>
    simp only [step] at h
    split at h
    · rename_i hd
      obtain rfl := Option.some.inj h
      exact .of_advertised (hs.paused (by simp [hd])) (by simp) id (by simp [AllCharged])
    · rename_i hd
      obtain rfl := Option.some.inj h
      exact .of_advertised (hs.paused (by simp [hd])) (by simp) id
        (fun hf _ => hs.full hf (by rw [hd]; rfl))
    · contradiction
  | loseReport =>
    simp only [step] at h
    split at h
    · obtain rfl := Option.some.inj h
      exact hs.of_pump rfl (Nat.le_refl _)
    · contradiction
  | stopPump =>
    simp only [step] at h
    split at h
    · obtain rfl := Option.some.inj h
      exact hs.of_pump rfl (Nat.zero_le _)
    · obtain rfl := Option.some.inj h
      exact hs.of_pump rfl (Nat.zero_le _)
    · contradiction
  | report =>
    have hl : s.meter.latched = false := hg
    simp only [step] at h
    split at h
    · rename_i n hd _
      obtain rfl := Option.some.inj h
      refine .of_advertised (fun hl' => absurd (hl.symm.trans hl') (by simp)) ?_ ?_ hs.full
      · simp [advertise, hd]
      · simp [advertise, hd, Retracts]
    · contradiction
  | tick =>
    simp only [step] at h
    split at h
    · rename_i hd
      have hfull : s.Full → AllCharged side .idle = true → s.meter.latched = true := hd ▸ hs.full
      split at h
      · rename_i hcond
        obtain rfl := Option.some.inj h
        refine ⟨fun hl => absurd (hcond.2.symm.trans hl) (by simp), fun _ => hcond.2, ?_,
          fun _ => id⟩
        cases side
        · simp [AllCharged]
        · exact hfull
      · obtain rfl := Option.some.inj h
        refine .of_advertised (hs.paused (by simp [hd])) (by simp) id ?_
        cases side
        · simp [AllCharged]
        · exact hfull
    · contradiction
  | reset =>
    cases side
    · obtain rfl := Option.some.inj h
      exact hs.of_open hg rfl
    · contradiction
  | other edge =>
    simp only [step] at h
    split at h
    · contradiction
    · rename_i hne
      obtain rfl := Option.some.inj h
      have hpaused := s.advertiser.isPaused_record_of_ne edge conn hne
      refine ⟨?_, hs.reconciling, hs.full, hs.client⟩
      intro hl
      rcases hs.advertised hl with hd | hp
      · exact .inl hd
      · exact .inr (hpaused.trans hp)

theorem init_parkingInv (high low : Nat) : (init high low).ParkingInv side conn where
  advertised := fun hl => by simp [init, FlowMeter.new] at hl
  reconciling := fun hd => by simp [init] at hd
  full := fun hf => by simp [Full, init, channelBuffer] at hf
  client := fun _ => id

/-- **Congestion is announced before the task parks.** On the server and on the client, in every run in
    which the bytes trip before the entries: whenever the delivering task is parked on a full queue, the
    gauge is latched and the advertiser has recorded the pause. -/
theorem parked_is_announced (side : Side) (conn : ConnectionId) (high low : Nat)
    (as : List ChannelAction) (s : Channel)
    (hr : run (step side conn) (init high low) as = some s)
    (hm : Meets (step side conn) (TripsInBytes side) (init high low) as) :
    s.Parked → s.Announced conn := by
  intro hp
  have hI : s.ParkingInv side conn :=
    run_inv (fun _ _ _ hs hg h => step_parkingInv hs hg h) (init_parkingInv high low) hm hr
  unfold Parked at hp
  split at hp
  · rename_i data hd
    have hl : s.meter.latched = true := hI.full hp.2 (by rw [hd]; cases side <;> rfl)
    exact ⟨hl, hI.paused (by simp [hd]) hl⟩
  · exact hp.elim

/-! ## A queue that fills up -/

/-- The gauge `meter`, with `n` payloads of one byte on the queue and nothing in progress. -/
def holding (meter : FlowMeter) (advertiser : Advertiser) (emitted : List FlowEdge) (n : Nat) :
    Channel where
  meter := { meter with pending := n }
  queue := List.replicate n [0]
  delivery := .idle
  pump := .idle
  advertiser := advertiser
  reports := 0
  emitted := emitted
  charged := n
  discharged := 0

/-- A payload below `high`: charge and enqueue, in the order of either side. -/
theorem holding_small (side : Side) (conn : ConnectionId) {n : Nat} (hn : n < channelBuffer) :
    run (step side conn) (holding (.new pauseBytes resumeBytes) .empty [] n)
        [.deliver [0], .delivery, .delivery] =
      some (holding (.new pauseBytes resumeBytes) .empty [] (n + 1)) := by
  have hlow : ¬ max pauseBytes 1 ≤ n + 1 := by
    simp only [pauseBytes, channelBuffer] at hn ⊢
    omega
  cases side <;>
    simp [run, step, deliveryStep, holding, FlowMeter.new, FlowMeter.add, hlow, hn, afterCharge,
      List.replicate_succ']

/-- The queue fills with payloads of one byte and another one comes. -/
def smallPayloads (side : Side) : List ChannelAction :=
  (List.replicate channelBuffer [.deliver [0], .delivery, .delivery]).flatten ++
    match side with
    | .server => [.deliver [0], .delivery]
    | .client => [.deliver [0]]

theorem smallPayloads_parked (side : Side) (conn : ConnectionId) :
    ∃ s, run (step side conn) (init pauseBytes resumeBytes) (smallPayloads side) = some s ∧
      s.Parked ∧ s.meter.latched = false := by
  have hfill : run (step side conn) (holding (.new pauseBytes resumeBytes) .empty [] 0)
      (List.replicate channelBuffer [.deliver [0], .delivery, .delivery]).flatten =
        some (holding (.new pauseBytes resumeBytes) .empty [] channelBuffer) := by
    have := (run_replicate (m := 0) (k := channelBuffer) (G := fun _ _ => True)
      (f := holding (.new pauseBytes resumeBytes) .empty [])
      fun i _ hi => ⟨holding_small side conn (by omega), meets_true _ _ _⟩).1
    rwa [Nat.zero_add] at this
  cases side with
  | server =>
    refine ⟨_, run_append.mpr ⟨_, hfill, rfl⟩, ?_, ?_⟩
    · simp [Parked, holding, FlowMeter.new, afterCharge, Full]
    · simp [holding, FlowMeter.new, FlowMeter.add]
  | client =>
    refine ⟨_, run_append.mpr ⟨_, hfill, rfl⟩, ?_, ?_⟩
    · simp [Parked, holding, Full]
    · simp [holding, FlowMeter.new]

/-- A payload that finds the gauge latched: charge, look at the latch, enqueue. -/
theorem holding_latched (conn : ConnectionId) (advertiser : Advertiser) (emitted : List FlowEdge)
    {n : Nat} (hn : n < channelBuffer) :
    run (step .server conn) (holding ⟨0, 1, 0, true⟩ advertiser emitted n)
        [.deliver [0], .delivery, .delivery, .delivery] =
        some (holding ⟨0, 1, 0, true⟩ advertiser emitted (n + 1)) ∧
      Meets (step .server conn) (TripsInBytes .server)
        (holding ⟨0, 1, 0, true⟩ advertiser emitted n)
        [.deliver [0], .delivery, .delivery, .delivery] := by
  refine ⟨?_, ?_⟩
  · simp [run, step, deliveryStep, holding, FlowMeter.add, FlowMeter.latch, hn, afterCharge,
      List.replicate_succ']
  · simp [Meets, TripsInBytes, step, deliveryStep, holding, FlowMeter.add, FlowMeter.latch,
      afterCharge]

/-- With `high` at one byte the first payload latches the gauge; then the queue fills and another payload
    comes. -/
def latchedPayloads : List ChannelAction :=
  [.deliver [0], .delivery, .delivery, .delivery, .delivery] ++
    ((List.replicate (channelBuffer - 1) [.deliver [0], .delivery, .delivery, .delivery]).flatten ++
      [.deliver [0], .delivery, .delivery])

theorem parked_is_announced_latched :
    ∃ s, run (step .server ⟨7⟩) (init 1 0) latchedPayloads = some s ∧ s.Parked ∧
      s.Announced ⟨7⟩ := by
  let first := holding ⟨0, 1, 0, true⟩ (Advertiser.empty.record (.pause ⟨7⟩)).2 [.pause ⟨7⟩]
  have hfirst : run (step .server ⟨7⟩) (init 1 0)
      [.deliver [0], .delivery, .delivery, .delivery, .delivery] = some (first 1) := rfl
  obtain ⟨hfill, hmeets⟩ := run_replicate (m := 1) (k := channelBuffer - 1) (f := first)
    fun i _ hi => holding_latched ⟨7⟩ _ _ (n := i) (by simp only [channelBuffer] at hi ⊢; omega)
  rw [show 1 + (channelBuffer - 1) = channelBuffer from rfl] at hfill
  have hlast : ∃ s, run (step .server ⟨7⟩) (first channelBuffer)
      [.deliver [0], .delivery, .delivery] = some s ∧ s.Parked ∧
      Meets (step .server ⟨7⟩) (TripsInBytes .server) (first channelBuffer)
        [.deliver [0], .delivery, .delivery] := by
    refine ⟨_, rfl, ?_, ?_⟩
    · simp [Parked, first, holding, Full, afterCharge]
    · simp [Meets, TripsInBytes, step, deliveryStep, first, holding, FlowMeter.add, FlowMeter.latch,
        afterCharge]
  obtain ⟨s, hs, hp, hm⟩ := hlast
  have hr : run (step .server ⟨7⟩) (init 1 0) latchedPayloads = some s :=
    run_append.mpr ⟨_, hfirst, run_append.mpr ⟨_, hfill, hs⟩⟩
  have hg : Meets (step .server ⟨7⟩) (TripsInBytes .server) (init 1 0) latchedPayloads := by
    refine (meets_append hfirst).mpr ⟨?_, (meets_append hfill).mpr ⟨hmeets, hm⟩⟩
    simp [Meets, TripsInBytes, step, deliveryStep, init, FlowMeter.new, FlowMeter.add,
      FlowMeter.latch, afterCharge, advertise, channelBuffer]
  exact ⟨s, hr, hp, parked_is_announced .server ⟨7⟩ 1 0 latchedPayloads s hr hg hp⟩

/-- On both sides small payloads park the task with the gauge open. -/
theorem small_payloads_park :
    ¬ (∀ (conn : ConnectionId) (high low : Nat) (as : List ChannelAction) (s : Channel),
        run (step .server conn) (init high low) as = some s → s.Parked → s.Announced conn) ∧
      ¬ (∀ (conn : ConnectionId) (high low : Nat) (as : List ChannelAction) (s : Channel),
        run (step .client conn) (init high low) as = some s → s.Parked → s.Announced conn) := by
  refine ⟨?_, ?_⟩
  · intro h
    obtain ⟨s, hr, hp, hl⟩ := smallPayloads_parked .server ⟨7⟩
    exact absurd ((h _ _ _ _ _ hr hp).1.symm.trans hl) (by simp)
  · intro h
    obtain ⟨s, hr, hp, hl⟩ := smallPayloads_parked .client ⟨7⟩
    exact absurd ((h _ _ _ _ _ hr hp).1.symm.trans hl) (by simp)

end Channel

end RemoteX11.Flow
