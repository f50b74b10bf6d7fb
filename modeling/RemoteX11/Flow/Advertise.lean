/-
  Does the peer know that a channel is congested?

  A pause is recorded by the task that takes the latch. A resume reaches the same advertiser over the
  report channel, later, and on the server its frame has already been sent by the pump. When the
  latch is taken again before the report is processed, the old report is recorded over the new pause:
  the gauge is latched, the advertiser holds nothing, and the last frame is a resume.

  `latched_is_advertised`: in every run that takes the latch only with no old resume outstanding, a
  latched gauge is advertised as paused, on either side.
-/
import RemoteX11.Flow.Channel

namespace RemoteX11.Flow

open RemoteX11.Lib RemoteX11.Protocol

/-- The action of the last frame for a channel. -/
def lastFor (id : ConnectionId) (emitted : List FlowEdge) : Option FlowControlAction :=
  ((emitted.filter fun e => e.connectionId = id).getLast?).map FlowEdge.action

theorem lastFor_append (id : ConnectionId) (l m : List FlowEdge) :
    lastFor id (l ++ m) = (lastFor id m).or (lastFor id l) := by
  rw [lastFor, List.filter_append, List.getLast?_append, Option.map_or]
  rfl

/-- Frames that are pauses, as far as they concern the channel, leave a pause the last one. -/
theorem lastFor_append_pause {id : ConnectionId} {l m : List FlowEdge}
    (hl : lastFor id l = some .pause) (hm : ∀ e ∈ m, e.connectionId = id → e = .pause id) :
    lastFor id (l ++ m) = some .pause := by
  rw [lastFor_append, hl]
  cases h : lastFor id m with
  | none => rfl
  | some action =>
    unfold lastFor at h
    rw [Option.map_eq_some_iff] at h
    obtain ⟨e, he, rfl⟩ := h
    have hmem := List.mem_filter.mp (List.mem_of_getLast? he)
    rw [hm e hmem.1 (of_decide_eq_true hmem.2)]
    rfl

namespace Channel

/-- The pump has opened the latch and not reported it yet. -/
def BetweenResumeAndReport : Pump → Prop
  | .resuming => True
  | .reporting => True
  | _ => False

instance : DecidablePred BetweenResumeAndReport
  | .resuming => isTrue trivial
  | .reporting => isTrue trivial
  | .idle => isFalse id
  | .writing _ => isFalse id
  | .discharging _ => isFalse id
  | .drained _ => isFalse id
  | .unlatching => isFalse id
  | .stopped => isFalse id

/-- The latch is taken only when no resume of the channel is outstanding: none in the report channel,
    none on its way from the pump, and none sent over a pause that the advertiser still holds. -/
def LatchesAfresh (id : ConnectionId) (s : Channel) (a : ChannelAction) : Prop :=
  match a, s.delivery with
  | .delivery, .latching _ =>
    s.meter.latched = true ∨
      (s.reports = 0 ∧ ¬ BetweenResumeAndReport s.pump ∧
        (s.advertiser.isPaused id = true → lastFor id s.emitted = some .pause))
  | _, _ => True

instance (id : ConnectionId) (s : Channel) (a : ChannelAction) :
    Decidable (s.LatchesAfresh id a) :=
  match a with
  | .delivery =>
    match hd : s.delivery with
    | .latching _ =>
      decidable_of_iff (s.meter.latched = true ∨ (s.reports = 0 ∧ ¬ BetweenResumeAndReport s.pump ∧
          (s.advertiser.isPaused id = true → lastFor id s.emitted = some .pause)))
        (by simp only [LatchesAfresh, hd])
    | .idle | .charging _ | .advertising _ | .enqueueing _ | .retracting _ | .retracted _
    | .retractUnlatching | .reconciling | .restating =>
      isTrue (by simp only [LatchesAfresh, hd])
  | .deliver _ | .pump | .loseReport | .stopPump | .report | .tick | .reset | .other _ =>
    isTrue trivial

/-- The delivery is between its charge and the advertisement of its edge. -/
def BetweenChargeAndAdvertise : Delivery → Prop
  | .latching _ => True
  | .advertising _ => True
  | _ => False

instance : DecidablePred BetweenChargeAndAdvertise
  | .latching _ => isTrue trivial
  | .advertising _ => isTrue trivial
  | .idle => isFalse id
  | .charging _ => isFalse id
  | .enqueueing _ => isFalse id
  | .retracting _ => isFalse id
  | .retracted _ => isFalse id
  | .retractUnlatching => isFalse id
  | .reconciling => isFalse id
  | .restating => isFalse id

/-- A latched gauge is held paused and was last announced as paused. -/
def Advertised (id : ConnectionId) (s : Channel) : Prop :=
  s.meter.latched = true →
    s.advertiser.isPaused id = true ∧ lastFor id s.emitted = some .pause

/-! ## The invariant -/

structure AdvertiseInv (id : ConnectionId) (s : Channel) : Prop where
  /-- once a taken latch is advertised, it stays so -/
  held : (∀ data, s.delivery ≠ .advertising data) → s.Advertised id
  /-- while it is about to be advertised, a pause that is held already was the last word -/
  fresh : ∀ data, s.delivery = .advertising data → s.meter.latched = true →
    s.advertiser.isPaused id = true → lastFor id s.emitted = some .pause
  pumpOpen : BetweenResumeAndReport s.pump → s.meter.latched = false
  reportsOpen : 0 < s.reports → s.meter.latched = false
  reconcileOpen : s.delivery = .reconciling → s.meter.latched = false

/-- With the gauge open there is nothing to advertise. -/
theorem AdvertiseInv.of_open {id : ConnectionId} {s : Channel} (h : s.meter.latched = false) :
    s.AdvertiseInv id where
  held := fun _ hl => by rw [h] at hl; cases hl
  fresh := fun _ _ hl => by rw [h] at hl; cases hl
  pumpOpen := fun _ => h
  reportsOpen := fun _ => h
  reconcileOpen := fun _ => h

/-- A step of the delivering task that touches neither the latch nor the advertisement. -/
theorem AdvertiseInv.of_delivery {id : ConnectionId} {s : Channel} (hs : s.AdvertiseInv id)
    (hadv : ∀ data, s.delivery ≠ .advertising data) {meter : FlowMeter} {queue : List Bytes}
    {next : Delivery} {charged : Nat} (hmeter : meter.latched = s.meter.latched)
    (hnext : ∀ data, next ≠ .advertising data) (hrec : next ≠ .reconciling) :
    AdvertiseInv id
      { s with meter := meter, queue := queue, delivery := next, charged := charged } where
  held := fun _ hl => hs.held hadv (hmeter ▸ hl)
  fresh := fun data hd => absurd hd (hnext data)
  pumpOpen := fun hp => hmeter.trans (hs.pumpOpen hp)
  reportsOpen := fun hp => hmeter.trans (hs.reportsOpen hp)
  reconcileOpen := fun hd => absurd hd hrec

theorem afterCharge_ne (side : Side) (data : Bytes) :
    (∀ data', afterCharge side data ≠ .advertising data') ∧
      afterCharge side data ≠ .reconciling := by
  cases side <;> simp [afterCharge]

/-- Recording a pause holds the channel, and the pause is the last frame if it was when held. -/
theorem advertise_pause {id : ConnectionId} {s : Channel}
    (h : s.advertiser.isPaused id = true → lastFor id s.emitted = some .pause) :
    (s.advertise (.pause id)).advertiser.isPaused id = true ∧
      lastFor id (s.advertise (.pause id)).emitted = some .pause := by
  refine ⟨s.advertiser.isPaused_record_pause id, ?_⟩
  by_cases hp : s.advertiser.isPaused id = true
  · have hsend : (s.advertiser.record (.pause id)).1 = false := by
      simp [Advertiser.record, Advertiser.recordPause, FlowEdge.pause, hp]
    simp only [advertise, hsend]
    rw [if_neg (by simp), List.append_nil]
    exact h hp
  · have hsend : (s.advertiser.record (.pause id)).1 = true := by
      simpa [Advertiser.record, Advertiser.recordPause, FlowEdge.pause] using hp
    simp only [advertise, hsend, if_true]
    rw [lastFor_append]
    simp [lastFor, FlowEdge.pause]

theorem deliveryStep_advertiseInv {side : Side} {id : ConnectionId} {s t : Channel}
    (hs : s.AdvertiseInv id) (hg : s.LatchesAfresh id .delivery)
    (h : s.deliveryStep side id = some t) : t.AdvertiseInv id := by
  unfold deliveryStep at h
  cases hd : s.delivery with
  | idle => simp [hd] at h
  | charging data =>
    have hadv : ∀ d, s.delivery ≠ .advertising d := by simp [hd]
    simp only [hd] at h
    split at h
    · obtain rfl := Option.some.inj h
      exact hs.of_delivery hadv rfl (by simp) (by simp)
    · obtain rfl := Option.some.inj h
      exact hs.of_delivery hadv rfl (afterCharge_ne side data).1 (afterCharge_ne side data).2
  | latching data =>
    have hadv : ∀ d, s.delivery ≠ .advertising d := by simp [hd]
    simp only [hd] at h
    split at h
    · -- the latch is taken: the condition says that no old resume can follow
      rename_i hopen
      have hnl : ¬ s.meter.latched = true := by simpa [FlowMeter.latch] using hopen
      simp only [LatchesAfresh, hd] at hg
      obtain ⟨hrep, hpump, hlast⟩ := hg.resolve_left hnl
      obtain rfl := Option.some.inj h
      exact ⟨fun hne => absurd rfl (hne data), fun _ _ _ => hlast,
        fun hp => absurd hp hpump, fun hp => absurd hrep (Nat.ne_of_gt hp),
        fun hr => by cases hr⟩
    · obtain rfl := Option.some.inj h
      exact hs.of_delivery hadv rfl (afterCharge_ne side data).1 (afterCharge_ne side data).2
  | advertising data =>
    simp only [hd] at h
    obtain rfl := Option.some.inj h
    by_cases hl : s.meter.latched = true
    · have := advertise_pause (hs.fresh data hd hl)
      exact ⟨fun _ _ => this, fun d hd' => absurd hd' ((afterCharge_ne side data).1 d),
        hs.pumpOpen, hs.reportsOpen, fun hr => absurd hr (afterCharge_ne side data).2⟩
    · exact AdvertiseInv.of_open (by simpa [advertise] using hl)
  | enqueueing data =>
    have hadv : ∀ d, s.delivery ≠ .advertising d := by simp [hd]
    simp only [hd] at h
    split at h
    · obtain rfl := Option.some.inj h
      exact hs.of_delivery hadv rfl (by simp) (by simp)
    · obtain rfl := Option.some.inj h
      exact hs.of_delivery hadv rfl (by simp) (by simp)
    · split at h
      · split at h
        · obtain rfl := Option.some.inj h
          exact hs.of_delivery hadv rfl (by simp) (by simp)
        · obtain rfl := Option.some.inj h
          exact hs.of_delivery hadv rfl (by simp) (by simp)
      · contradiction
  | retracting size =>
    have hadv : ∀ d, s.delivery ≠ .advertising d := by simp [hd]
    simp only [hd] at h
    obtain rfl := Option.some.inj h
    exact ⟨fun _ hl => hs.held hadv hl, fun _ hd' => (by cases hd'), hs.pumpOpen, hs.reportsOpen,
      fun hr => by cases hr⟩
  | retracted after =>
    have hadv : ∀ d, s.delivery ≠ .advertising d := by simp [hd]
    simp only [hd] at h
    split at h
    · obtain rfl := Option.some.inj h
      exact hs.of_delivery hadv rfl (by simp) (by simp)
    · obtain rfl := Option.some.inj h
      exact hs.of_delivery hadv rfl (by simp) (by simp)
  | retractUnlatching =>
    simp only [hd] at h
    obtain rfl := Option.some.inj h
    exact AdvertiseInv.of_open rfl
  | reconciling =>
    have hopen := hs.reconcileOpen hd
    simp only [hd] at h
    obtain rfl := Option.some.inj h
    exact AdvertiseInv.of_open hopen
  | restating =>
    -- a tick repeats the pause of a channel it holds
    have hadv : ∀ d, s.delivery ≠ .advertising d := by simp [hd]
    simp only [hd] at h
    obtain rfl := Option.some.inj h
    refine ⟨fun _ hl => ?_, fun _ hd' => (by cases hd'), hs.pumpOpen, hs.reportsOpen,
      fun hr => by cases hr⟩
    obtain ⟨hp, hlast⟩ := hs.held hadv hl
    exact ⟨hp, lastFor_append_pause hlast (s.advertiser.due_of_isPaused id hp)⟩

/-- A step of the pump that leaves the latch alone and is not its way to a report. -/
theorem AdvertiseInv.of_pump {id : ConnectionId} {s : Channel} (hs : s.AdvertiseInv id)
    {meter : FlowMeter} {queue : List Bytes} {next : Pump} {discharged : Nat}
    (hmeter : meter.latched = s.meter.latched) (hnext : ¬ BetweenResumeAndReport next) :
    AdvertiseInv id
      { s with meter := meter, queue := queue, pump := next, discharged := discharged } where
  held := fun hne hl => hs.held hne (hmeter ▸ hl)
  fresh := fun data hd hl => hs.fresh data hd (hmeter ▸ hl)
  pumpOpen := fun hp => absurd hp hnext
  reportsOpen := fun hp => hmeter.trans (hs.reportsOpen hp)
  reconcileOpen := fun hd => hmeter.trans (hs.reconcileOpen hd)

theorem pumpStep_advertiseInv {side : Side} {id : ConnectionId} {s t : Channel}
    (hs : s.AdvertiseInv id) (h : s.pumpStep side id = some t) : t.AdvertiseInv id := by
  unfold pumpStep at h
  cases hp : s.pump with
  | idle =>
    simp only [hp] at h
    split at h
    · contradiction
    · obtain rfl := Option.some.inj h
      exact hs.of_pump rfl (by simp [BetweenResumeAndReport])
  | writing data =>
    simp only [hp] at h
    obtain rfl := Option.some.inj h
    exact hs.of_pump rfl (by simp [BetweenResumeAndReport])
  | discharging size =>
    simp only [hp] at h
    obtain rfl := Option.some.inj h
    exact hs.of_pump rfl (by simp [BetweenResumeAndReport])
  | drained after =>
    simp only [hp] at h
    split at h
    · obtain rfl := Option.some.inj h
      exact hs.of_pump rfl (by simp [BetweenResumeAndReport])
    · obtain rfl := Option.some.inj h
      exact hs.of_pump rfl (by simp [BetweenResumeAndReport])
  | unlatching =>
    simp only [hp] at h
    split at h
    · split at h
      · obtain rfl := Option.some.inj h
        exact AdvertiseInv.of_open rfl
      · obtain rfl := Option.some.inj h
        exact AdvertiseInv.of_open rfl
    · obtain rfl := Option.some.inj h
      exact hs.of_pump rfl (by simp [BetweenResumeAndReport])
  | resuming =>
    have hopen := hs.pumpOpen (by rw [hp]; trivial)
    simp only [hp] at h
    obtain rfl := Option.some.inj h
    exact AdvertiseInv.of_open hopen
  | reporting =>
    have hopen := hs.pumpOpen (by rw [hp]; trivial)
    simp only [hp] at h
    obtain rfl := Option.some.inj h
    exact AdvertiseInv.of_open hopen
  | stopped => simp [hp] at h

theorem step_advertiseInv {side : Side} {id : ConnectionId} {s t : Channel} {a : ChannelAction}
    (hs : s.AdvertiseInv id) (hg : s.LatchesAfresh id a) (h : s.step side id a = some t) :
    t.AdvertiseInv id := by
  cases a with
  | delivery => exact deliveryStep_advertiseInv hs hg h
  | pump => exact pumpStep_advertiseInv hs h
  | deliver data =>
    simp only [step] at h
    split at h
    · rename_i hd
      obtain rfl := Option.some.inj h
      exact hs.of_delivery (by simp [hd]) rfl (by simp) (by simp)
    · rename_i hd
      obtain rfl := Option.some.inj h
      exact hs.of_delivery (by simp [hd]) rfl (by simp) (by simp)
    · contradiction
  | loseReport =>
    simp only [step] at h
    split at h
    · obtain rfl := Option.some.inj h
      exact hs.of_pump rfl (by simp [BetweenResumeAndReport])
    · contradiction
  | stopPump =>
    simp only [step] at h
    split at h
    · obtain rfl := Option.some.inj h
      exact hs.of_pump rfl (by simp [BetweenResumeAndReport])
    · obtain rfl := Option.some.inj h
      exact hs.of_pump rfl (by simp [BetweenResumeAndReport])
    · contradiction
  | report =>
    simp only [step] at h
    split at h
    · rename_i n _ hrep
      obtain rfl := Option.some.inj h
      exact AdvertiseInv.of_open (hs.reportsOpen (by omega))
    · contradiction
  | tick =>
    simp only [step] at h
    split at h
    · rename_i hd
      split at h
      · rename_i hcond
        obtain rfl := Option.some.inj h
        exact AdvertiseInv.of_open hcond.2
      · obtain rfl := Option.some.inj h
        exact hs.of_delivery (by simp [hd]) rfl (by simp) (by simp)
    · contradiction
  | reset =>
    cases side
    · obtain rfl := Option.some.inj h
      exact AdvertiseInv.of_open rfl
    · contradiction
  | other edge =>
    simp only [step] at h
    split at h
    · contradiction
    · rename_i hne
      obtain rfl := Option.some.inj h
      have hpaused := s.advertiser.isPaused_record_of_ne edge id hne
      have hlast : lastFor id (s.advertise edge).emitted = lastFor id s.emitted := by
        unfold advertise
        rw [lastFor_append]
        split <;> simp [lastFor, hne]
      refine ⟨fun hadv hl => ?_, fun data hd hl hp => ?_, hs.pumpOpen, hs.reportsOpen,
        hs.reconcileOpen⟩
      · rw [hlast]
        exact ⟨hpaused.trans (hs.held hadv hl).1, (hs.held hadv hl).2⟩
      · rw [hlast]
        exact hs.fresh data hd hl (hpaused ▸ hp)

/-- **A latched gauge is advertised.** On the server and on the client, in every run that takes the
    latch only with no old resume outstanding: with no report in flight and no delivery between its
    charge and its advertisement, a latched gauge is held paused and was last announced as paused. -/
theorem latched_is_advertised (side : Side) (id : ConnectionId) (high low : Nat)
    (as : List ChannelAction) (s : Channel)
    (hr : run (step side id) (init high low) as = some s)
    (hm : Meets (step side id) (LatchesAfresh id) (init high low) as) :
    s.reports = 0 → ¬ BetweenChargeAndAdvertise s.delivery → s.Advertised id := by
  intro _ hd
  have hI : s.AdvertiseInv id :=
    run_inv (fun _ _ _ hs hg h => step_advertiseInv hs hg h) (AdvertiseInv.of_open rfl) hm hr
  refine hI.held fun data hadv => hd ?_
  rw [hadv]
  trivial

/-- A burst of seven bytes that latches the gauge: charge, latch, advertise and enqueue in the order
    of either side. -/
def latchRun : List ChannelAction :=
  [.deliver [1, 2, 3, 4, 5, 6, 7], .delivery, .delivery, .delivery, .delivery]

/-- The burst is written and the resume reported in `pumpSteps` steps, a second burst latches the
    gauge again, and only then the report is processed. -/
def staleReport (pumpSteps : Nat) : List ChannelAction :=
  latchRun ++ List.replicate pumpSteps .pump ++ latchRun ++ [.report]

theorem latched_is_advertised_burst :
    ∃ s, run (step .server ⟨7⟩) (init 6 2) latchRun = some s ∧ s.meter.latched = true ∧
      (s.reports = 0 → ¬ BetweenChargeAndAdvertise s.delivery → s.Advertised ⟨7⟩) :=
  have hr := Option.eq_some_of_isSome
    (show (run (step .server ⟨7⟩) (init 6 2) latchRun).isSome = true by decide +kernel)
  ⟨_, hr, by decide +kernel,
    latched_is_advertised .server ⟨7⟩ 6 2 latchRun _ hr (by decide +kernel)⟩

/-- On both sides a stale report un-advertises a latched gauge. -/
theorem stale_report_unadvertises :
    ¬ (∀ (id : ConnectionId) (high low : Nat) (as : List ChannelAction) (s : Channel),
        run (step .server id) (init high low) as = some s → s.reports = 0 →
          ¬ BetweenChargeAndAdvertise s.delivery → s.Advertised id) ∧
      ¬ (∀ (id : ConnectionId) (high low : Nat) (as : List ChannelAction) (s : Channel),
        run (step .client id) (init high low) as = some s → s.reports = 0 →
          ¬ BetweenChargeAndAdvertise s.delivery → s.Advertised id) := by
  refine ⟨?_, ?_⟩
  · intro h
    have hr := Option.eq_some_of_isSome
      (show (run (step .server ⟨7⟩) (init 6 2) (staleReport 7)).isSome = true by decide +kernel)
    have := (h ⟨7⟩ 6 2 _ _ hr (by decide +kernel) (by decide +kernel) (by decide +kernel)).1
    exact absurd this (by decide +kernel)
  · intro h
    have hr := Option.eq_some_of_isSome
      (show (run (step .client ⟨7⟩) (init 6 2) (staleReport 6)).isSome = true by decide +kernel)
    have := (h ⟨7⟩ 6 2 _ _ hr (by decide +kernel) (by decide +kernel) (by decide +kernel)).1
    exact absurd this (by decide +kernel)

end Channel

end RemoteX11.Flow
