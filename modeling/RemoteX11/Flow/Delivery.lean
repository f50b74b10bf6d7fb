/-
  Does the gauge of a channel return to zero when everything has been written?

  On the server a payload is charged before the pump can see it, so every discharge finds its own
  bytes in `pending` and a latch is only ever taken while its payload is still ahead of the pump
  (`server_settles`, for every run). On the client the payload is on the queue first. The pump may
  then write and discharge it before it is charged, which saturates and leaves the late charge
  behind, or the latch may be taken after the last discharge has already looked at it.
  `client_settles` is about the runs in which neither happens.
-/
import RemoteX11.Flow.Channel

namespace RemoteX11.Flow

open RemoteX11.Lib RemoteX11.Protocol

namespace Channel

theorem queuedBytes_snoc (s : Channel) (data : Bytes) :
    queuedBytes { s with queue := s.queue ++ [data] } = s.queuedBytes + data.length := by
  simp [queuedBytes]

theorem queue_ne_nil_of_queuedBytes {s : Channel} (h : 0 < s.queuedBytes) : s.queue ≠ [] := by
  intro hq
  rw [queuedBytes, hq] at h
  exact Nat.lt_irrefl 0 h

/-! ## The server -/

/-- Bytes the delivering task has charged and neither enqueued nor taken back. -/
def chargedAhead : Delivery → Nat
  | .latching data => data.length
  | .advertising data => data.length
  | .enqueueing data => data.length
  | .retracting size => size
  | _ => 0

/-- The delivering task holds a payload that it has charged. -/
def HoldsCharged : Delivery → Prop
  | .latching _ => True
  | .advertising _ => True
  | .enqueueing _ => True
  | _ => False

/-- The delivering task found the channel gone. -/
def Retracts : Delivery → Prop
  | .retracting _ => True
  | .retracted _ => True
  | .retractUnlatching => True
  | _ => False

/-- The pump has a payload, or has yet to look at the latch with the backlog down to `low`. -/
def WillUnlatch (low : Nat) : Pump → Prop
  | .writing _ => True
  | .discharging _ => True
  | .drained after => after ≤ low
  | .unlatching => True
  | _ => False

/-- The gauge is exactly the bytes that are between charge and discharge, and a taken latch has
    something ahead of it that will open it. -/
structure ServerInv (s : Channel) : Prop where
  total : s.meter.pending + s.discharged = s.charged
  bound : s.queuedBytes + chargedAhead s.delivery + s.pump.unsettled ≤ s.meter.pending
  exact : s.pump ≠ .stopped →
    s.meter.pending = s.queuedBytes + chargedAhead s.delivery + s.pump.unsettled
  gone : Retracts s.delivery → s.pump = .stopped
  latch : s.pump ≠ .stopped → s.meter.latched = true →
    s.queue ≠ [] ∨ HoldsCharged s.delivery ∨ WillUnlatch s.meter.low s.pump

theorem deliveryStep_serverInv {id : ConnectionId} {s t : Channel} (hs : s.ServerInv)
    (h : s.deliveryStep .server id = some t) : t.ServerInv := by
  obtain ⟨htotal, hbound, hexact, hgone, hlatch⟩ := hs
  unfold deliveryStep at h
  cases hd : s.delivery with
  | idle => simp [hd] at h
  | charging data =>
    simp only [hd] at h hbound hexact hgone hlatch
    split at h
    all_goals
      obtain rfl := Option.some.inj h
      refine ⟨?_, ?_, ?_, ?_, ?_⟩
      · simp only [FlowMeter.add]; omega
      · simp only [FlowMeter.add, chargedAhead, afterCharge, queuedBytes] at hbound ⊢; omega
      · intro hp
        have := hexact hp
        simp only [FlowMeter.add, chargedAhead, afterCharge, queuedBytes] at this ⊢; omega
      · exact hgone
      · exact fun _ _ => .inr (.inl trivial)
  | latching data =>
    simp only [hd] at h hbound hexact hgone hlatch
    split at h
    all_goals
      obtain rfl := Option.some.inj h
      exact ⟨htotal, hbound, hexact, hgone, fun _ _ => .inr (.inl trivial)⟩
  | advertising data =>
    simp only [hd] at h hbound hexact hgone hlatch
    obtain rfl := Option.some.inj h
    exact ⟨htotal, hbound, hexact, hgone, fun _ _ => .inr (.inl trivial)⟩
  | enqueueing data =>
    simp only [hd] at h hbound hexact hgone hlatch
    split at h
    · rename_i hp _
      obtain rfl := Option.some.inj h
      exact ⟨htotal, hbound, fun hne => absurd hp hne, fun _ => hp, fun hne => absurd hp hne⟩
    · simp_all
    · -- the payload moves from the task to the queue
      split at h
      · obtain rfl := Option.some.inj h
        have hq := queuedBytes_snoc s data
        refine ⟨htotal, ?_, ?_, fun hr => hr.elim, fun _ _ => .inl (by simp)⟩
        · simp only [chargedAhead, queuedBytes] at hbound hq ⊢; omega
        · intro hp
          have := hexact hp
          simp only [chargedAhead, queuedBytes] at this hq ⊢; omega
      · contradiction
  | retracting size =>
    simp only [hd] at h hbound hexact hgone hlatch
    have hp : s.pump = .stopped := hgone trivial
    have hle : size ≤ s.meter.pending := by
      simp only [chargedAhead] at hbound; omega
    obtain rfl := Option.some.inj h
    refine ⟨?_, ?_, fun hne => absurd hp hne, fun _ => hp, fun hne => absurd hp hne⟩
    · simp only [subPending, FlowMeter.sub]; omega
    · simp only [subPending, FlowMeter.sub, chargedAhead, queuedBytes] at hbound ⊢; omega
  | retracted after =>
    simp only [hd] at h hbound hexact hgone hlatch
    have hp : s.pump = .stopped := hgone trivial
    split at h
    all_goals
      obtain rfl := Option.some.inj h
      exact ⟨htotal, hbound, fun hne => absurd hp hne, fun _ => hp, fun hne => absurd hp hne⟩
  | retractUnlatching =>
    simp only [hd] at h hbound hexact hgone hlatch
    have hp : s.pump = .stopped := hgone trivial
    obtain rfl := Option.some.inj h
    exact ⟨htotal, hbound, fun hne => absurd hp hne, fun _ => hp, fun hne => absurd hp hne⟩
  | reconciling =>
    simp only [hd] at h hbound hexact hgone hlatch
    obtain rfl := Option.some.inj h
    exact ⟨htotal, hbound, hexact, fun hr => hr.elim, hlatch⟩
  | restating =>
    simp only [hd] at h hbound hexact hgone hlatch
    obtain rfl := Option.some.inj h
    exact ⟨htotal, hbound, hexact, fun hr => hr.elim, hlatch⟩

theorem pumpStep_serverInv {id : ConnectionId} {s t : Channel} (hs : s.ServerInv)
    (h : s.pumpStep .server id = some t) : t.ServerInv := by
  obtain ⟨htotal, hbound, hexact, hgone, hlatch⟩ := hs
  -- a step of the pump is a step of a running pump
  have hrun : s.pump ≠ .stopped := by
    intro hp
    simp [pumpStep, hp] at h
  have hret : ¬ Retracts s.delivery := fun hr => hrun (hgone hr)
  replace hexact := hexact hrun
  replace hlatch := hlatch hrun
  unfold pumpStep at h
  cases hp : s.pump with
  | idle =>
    simp only [hp] at h hbound hexact hlatch
    split at h
    · contradiction
    · rename_i data rest hq
      obtain rfl := Option.some.inj h
      have hb : s.queuedBytes = data.length + (rest.map List.length).sum := by
        simp [queuedBytes, hq]
      refine ⟨htotal, ?_, ?_, fun hr => absurd hr hret, fun _ _ => .inr (.inr trivial)⟩
      · simp only [queuedBytes, Pump.unsettled] at hbound hb ⊢; omega
      · intro _
        simp only [queuedBytes, Pump.unsettled] at hexact hb ⊢; omega
  | writing data =>
    simp only [hp] at h hbound hexact hlatch
    obtain rfl := Option.some.inj h
    exact ⟨htotal, hbound, fun _ => hexact, fun hr => absurd hr hret,
      fun _ _ => .inr (.inr trivial)⟩
  | discharging size =>
    simp only [hp, Pump.unsettled] at h hbound hexact hlatch
    obtain rfl := Option.some.inj h
    refine ⟨?_, ?_, ?_, fun hr => absurd hr hret, ?_⟩
    · simp only [subPending, FlowMeter.sub]; omega
    · simp only [subPending, FlowMeter.sub, Pump.unsettled, queuedBytes] at hbound ⊢; omega
    · intro _
      simp only [subPending, FlowMeter.sub, Pump.unsettled, queuedBytes] at hexact ⊢; omega
    · -- more than `low` left means that something is still ahead of the pump
      intro _ _
      by_cases hlow : s.meter.pending - size ≤ s.meter.low
      · exact .inr (.inr hlow)
      · by_cases hq : 0 < s.queuedBytes
        · exact .inl (queue_ne_nil_of_queuedBytes hq)
        · refine .inr (.inl ?_)
          have hahead : 0 < chargedAhead s.delivery := by omega
          unfold chargedAhead at hahead
          unfold Retracts at hret
          show HoldsCharged s.delivery
          cases hd : s.delivery <;> simp_all [HoldsCharged]
  | drained after =>
    simp only [hp] at h hbound hexact hlatch
    split at h
    · obtain rfl := Option.some.inj h
      exact ⟨htotal, hbound, fun _ => hexact, fun hr => absurd hr hret,
        fun _ _ => .inr (.inr trivial)⟩
    · rename_i hcond
      obtain rfl := Option.some.inj h
      refine ⟨htotal, hbound, fun _ => hexact, fun hr => absurd hr hret, ?_⟩
      intro _ hl
      rcases hlatch hl with hq | hh | hw
      · exact .inl hq
      · exact .inr (.inl hh)
      · exact absurd ⟨hl, hw⟩ hcond
  | unlatching =>
    simp only [hp] at h hbound hexact hlatch
    split at h
    · obtain rfl := Option.some.inj h
      exact ⟨htotal, hbound, fun _ => hexact, fun hr => absurd hr hret, fun _ hl => by cases hl⟩
    · rename_i hcond
      obtain rfl := Option.some.inj h
      exact ⟨htotal, hbound, fun _ => hexact, fun hr => absurd hr hret,
        fun _ hl => absurd hl hcond⟩
  | resuming =>
    simp only [hp] at h hbound hexact hlatch
    obtain rfl := Option.some.inj h
    exact ⟨htotal, hbound, fun _ => hexact, fun hr => absurd hr hret, fun _ => hlatch⟩
  | reporting =>
    simp only [hp] at h hbound hexact hlatch
    obtain rfl := Option.some.inj h
    exact ⟨htotal, hbound, fun _ => hexact, fun hr => absurd hr hret, fun _ => hlatch⟩
  | stopped => exact absurd hp hrun

theorem step_serverInv {id : ConnectionId} {s t : Channel} {a : ChannelAction} (hs : s.ServerInv)
    (h : s.step .server id a = some t) : t.ServerInv := by
  cases a with
  | delivery => exact deliveryStep_serverInv hs h
  | pump => exact pumpStep_serverInv hs h
  | deliver data =>
    obtain ⟨htotal, hbound, hexact, hgone, hlatch⟩ := hs
    simp only [step] at h
    split at h
    · rename_i hd _
      rw [hd] at hbound hexact hlatch
      obtain rfl := Option.some.inj h
      exact ⟨htotal, hbound, hexact, fun hr => hr.elim, hlatch⟩
    · simp_all
    · contradiction
  | loseReport =>
    obtain ⟨htotal, hbound, hexact, hgone, hlatch⟩ := hs
    simp only [step] at h
    split at h
    · rename_i hp
      have hrun : s.pump ≠ .stopped := by rw [hp]; simp
      have hret : ¬ Retracts s.delivery := fun hr => hrun (hgone hr)
      rw [hp] at hbound
      replace hexact := hexact hrun
      replace hlatch := hlatch hrun
      rw [hp] at hexact hlatch
      obtain rfl := Option.some.inj h
      exact ⟨htotal, hbound, fun _ => hexact, fun hr => absurd hr hret, fun _ => hlatch⟩
    · contradiction
  | stopPump =>
    -- what was queued or in the pump's hands stays charged for good
    obtain ⟨htotal, hbound, hexact, hgone, hlatch⟩ := hs
    simp only [step] at h
    split at h
    all_goals
      cases h <;>
      refine ⟨htotal, ?_, fun hne => absurd rfl hne, fun _ => rfl, fun hne => absurd rfl hne⟩
    all_goals
      simp only [queuedBytes, Pump.unsettled, List.map_nil, List.sum_nil] at hbound ⊢; omega
  | report =>
    obtain ⟨htotal, hbound, hexact, hgone, hlatch⟩ := hs
    simp only [step] at h
    split at h
    · obtain rfl := Option.some.inj h
      exact ⟨htotal, hbound, hexact, hgone, hlatch⟩
    · contradiction
  | tick =>
    obtain ⟨htotal, hbound, hexact, hgone, hlatch⟩ := hs
    simp only [step] at h
    split at h
    · rename_i hd
      rw [hd] at hbound hexact hlatch
      split at h <;>
        (cases h; exact ⟨htotal, hbound, hexact, fun hr => hr.elim, hlatch⟩)
    · contradiction
  | reset =>
    obtain ⟨htotal, hbound, hexact, hgone, hlatch⟩ := hs
    obtain rfl := Option.some.inj h
    exact ⟨htotal, hbound, hexact, hgone, fun _ hl => by cases hl⟩
  | other edge =>
    obtain ⟨htotal, hbound, hexact, hgone, hlatch⟩ := hs
    simp only [step] at h
    split at h
    · contradiction
    · obtain rfl := Option.some.inj h
      exact ⟨htotal, hbound, hexact, hgone, hlatch⟩

theorem init_serverInv (high low : Nat) : (init high low).ServerInv :=
  ⟨rfl, Nat.le_refl _, fun _ => rfl, fun hr => hr.elim, fun _ hl => by cases hl⟩

/-- The bytes a task is about to take from `pending`. -/
def Discharges (s : Channel) (size : Nat) : Prop :=
  s.pump = .discharging size ∨ s.delivery = .retracting size

/-- **The server's gauge.** In every state of every run, `pending` is what was charged and not yet
    discharged, no discharge saturates, and once the queue is empty, the pump idle and no delivery in
    progress, nothing is pending and the gauge is open. -/
theorem server_settles (id : ConnectionId) (high low : Nat) (as : List ChannelAction) (s : Channel)
    (hr : run (step .server id) (init high low) as = some s) :
    s.meter.pending + s.discharged = s.charged ∧
      (∀ size, s.Discharges size → size ≤ s.meter.pending) ∧
      (s.Quiet → s.Clear) := by
  have hI : s.ServerInv :=
    run_inv_all (fun _ _ _ hs h => step_serverInv hs h) (init_serverInv high low) hr
  refine ⟨hI.total, ?_, ?_⟩
  · intro size hd
    have hbound := hI.bound
    rcases hd with hp | hd
    · rw [hp, Pump.unsettled] at hbound
      omega
    · rw [hd, chargedAhead] at hbound
      omega
  · rintro ⟨hq, hp, hd⟩
    have hrun : s.pump ≠ .stopped := by rw [hp]; simp
    refine ⟨?_, ?_⟩
    · have := hI.exact hrun
      rw [hd, hp, queuedBytes, hq] at this
      exact this
    · cases hl : s.meter.latched with
      | false => rfl
      | true =>
        have := hI.latch hrun hl
        rw [hq, hp, hd] at this
        rcases this with h | h | h
        · exact absurd rfl h
        · exact h.elim
        · exact h.elim

/-- A burst of two payloads that pauses the channel and is then written out. -/
def serverBurst : List ChannelAction :=
  [.deliver [1, 2, 3, 4], .delivery, .delivery, .deliver [5, 6, 7], .delivery, .delivery, .delivery,
    .delivery, .pump, .pump, .pump, .pump, .pump, .pump, .pump, .pump, .pump, .pump, .pump]

theorem server_settles_burst :
    ∃ s, run (step .server ⟨7⟩) (init 6 2) serverBurst = some s ∧ s.Quiet ∧
      s.emitted = [.pause ⟨7⟩, .resume ⟨7⟩] ∧
      s.meter.pending + s.discharged = s.charged ∧
      (∀ size, s.Discharges size → size ≤ s.meter.pending) ∧ (s.Quiet → s.Clear) :=
  have hr := Option.eq_some_of_isSome
    (show (run (step .server ⟨7⟩) (init 6 2) serverBurst).isSome = true by decide +kernel)
  ⟨_, hr, ⟨by decide +kernel, by decide +kernel, by decide +kernel⟩, by decide +kernel,
    server_settles ⟨7⟩ 6 2 serverBurst _ hr⟩

/-! ## The client -/

/-- Bytes the client has enqueued and not charged yet. -/
def enqueuedAhead : Delivery → Nat
  | .charging data => data.length
  | _ => 0

/-- The pump has yet to look at the latch. -/
def LooksAtLatch : Pump → Prop
  | .writing _ => True
  | .discharging _ => True
  | .drained _ => True
  | .unlatching => True
  | _ => False

instance : DecidablePred LooksAtLatch
  | .writing _ => isTrue trivial
  | .discharging _ => isTrue trivial
  | .drained _ => isTrue trivial
  | .unlatching => isTrue trivial
  | .idle => isFalse id
  | .resuming => isFalse id
  | .reporting => isFalse id
  | .stopped => isFalse id

/-- A discharge finds its bytes in the gauge, and a latch that is taken will still be looked at: the
    queue is not empty or the pump is on its way to the latch. -/
def ChargedInTime (s : Channel) (a : ChannelAction) : Prop :=
  match a, s.pump, s.delivery with
  | .pump, .discharging size, _ => size ≤ s.meter.pending
  | .delivery, pump, .latching _ => s.meter.latched = true ∨ s.queue ≠ [] ∨ LooksAtLatch pump
  | _, _, _ => True

instance (s : Channel) (a : ChannelAction) : Decidable (s.ChargedInTime a) :=
  match a with
  | .pump =>
    match hp : s.pump with
    | .discharging size =>
      decidable_of_iff (size ≤ s.meter.pending) (by simp only [ChargedInTime, hp])
    | .idle | .writing _ | .drained _ | .unlatching | .resuming | .reporting | .stopped =>
      isTrue (by simp only [ChargedInTime, hp])
  | .delivery =>
    match hd : s.delivery with
    | .latching _ =>
      decidable_of_iff (s.meter.latched = true ∨ s.queue ≠ [] ∨ LooksAtLatch s.pump)
        (by simp only [ChargedInTime, hd])
    | .idle | .charging _ | .advertising _ | .enqueueing _ | .retracting _ | .retracted _
    | .retractUnlatching | .reconciling | .restating =>
      isTrue (by simp only [ChargedInTime, hd])
  | .deliver _ | .loseReport | .stopPump | .report | .tick | .reset | .other _ => isTrue trivial

/-- The client's account while its pump runs. -/
structure ClientInv (s : Channel) : Prop where
  noRetract : ¬ Retracts s.delivery
  exact : s.pump ≠ .stopped →
    s.meter.pending + enqueuedAhead s.delivery = s.queuedBytes + s.pump.unsettled
  drained : ∀ after, s.pump = .drained after → s.meter.low < after → s.queue ≠ []
  latch : s.pump ≠ .stopped → s.meter.latched = true →
    s.queue ≠ [] ∨ WillUnlatch s.meter.low s.pump

theorem deliveryStep_clientInv {id : ConnectionId} {s t : Channel} (hs : s.ClientInv)
    (hg : s.ChargedInTime .delivery) (h : s.deliveryStep .client id = some t) : t.ClientInv := by
  obtain ⟨hret, hexact, hdrained, hlatch⟩ := hs
  unfold deliveryStep at h
  cases hd : s.delivery with
  | idle => simp [hd] at h
  | charging data =>
    simp only [hd] at h hexact
    split at h
    all_goals
      obtain rfl := Option.some.inj h
      refine ⟨fun hr => hr.elim, ?_, hdrained, hlatch⟩
      intro hp
      have := hexact hp
      simp only [FlowMeter.add, enqueuedAhead, afterCharge, queuedBytes] at this ⊢
      omega
  | latching data =>
    simp only [hd] at h hexact
    split at h
    · -- the latch is taken while the pump has yet to look at it
      rename_i hopen
      obtain rfl := Option.some.inj h
      refine ⟨fun hr => hr.elim, hexact, hdrained, ?_⟩
      intro hp _
      simp only [ChargedInTime, hd] at hg
      have hnl : ¬ s.meter.latched = true := by simpa [FlowMeter.latch] using hopen
      rcases hg with hl | hq | hb
      · exact absurd hl hnl
      · exact .inl hq
      · cases hpump : s.pump with
        | drained after =>
          by_cases hlow : after ≤ s.meter.low
          · exact .inr hlow
          · exact .inl (hdrained after hpump (by omega))
        | writing d => exact .inr trivial
        | discharging n => exact .inr trivial
        | unlatching => exact .inr trivial
        | idle => rw [hpump] at hb; exact hb.elim
        | resuming => rw [hpump] at hb; exact hb.elim
        | reporting => rw [hpump] at hb; exact hb.elim
        | stopped => rw [hpump] at hb; exact hb.elim
    · obtain rfl := Option.some.inj h
      exact ⟨fun hr => hr.elim, hexact, hdrained, hlatch⟩
  | advertising data =>
    simp only [hd] at h hexact
    obtain rfl := Option.some.inj h
    exact ⟨fun hr => hr.elim, hexact, hdrained, hlatch⟩
  | enqueueing data =>
    simp only [hd] at h hexact
    split at h
    · simp_all
    · rename_i hp _
      obtain rfl := Option.some.inj h
      exact ⟨fun hr => hr.elim, fun hne => absurd hp hne, hdrained, fun hne => absurd hp hne⟩
    · split at h
      · obtain rfl := Option.some.inj h
        have hq := queuedBytes_snoc s data
        refine ⟨fun hr => hr.elim, ?_, fun _ _ _ => by simp, fun _ _ => .inl (by simp)⟩
        intro hp
        have := hexact hp
        simp only [enqueuedAhead, queuedBytes] at this hq ⊢
        omega
      · contradiction
  | retracting size => rw [hd] at hret; exact absurd trivial hret
  | retracted after => rw [hd] at hret; exact absurd trivial hret
  | retractUnlatching => rw [hd] at hret; exact absurd trivial hret
  | reconciling =>
    simp only [hd] at h hexact
    obtain rfl := Option.some.inj h
    exact ⟨fun hr => hr.elim, hexact, hdrained, hlatch⟩
  | restating =>
    simp only [hd] at h hexact
    obtain rfl := Option.some.inj h
    exact ⟨fun hr => hr.elim, hexact, hdrained, hlatch⟩

theorem pumpStep_clientInv {id : ConnectionId} {s t : Channel} (hs : s.ClientInv)
    (hg : s.ChargedInTime .pump) (h : s.pumpStep .client id = some t) : t.ClientInv := by
  obtain ⟨hret, hexact, hdrained, hlatch⟩ := hs
  have hrun : s.pump ≠ .stopped := by
    intro hp
    simp [pumpStep, hp] at h
  replace hexact := hexact hrun
  replace hlatch := hlatch hrun
  unfold pumpStep at h
  cases hp : s.pump with
  | idle =>
    simp only [hp] at h hexact hlatch
    split at h
    · contradiction
    · rename_i data rest hq
      obtain rfl := Option.some.inj h
      have hb : s.queuedBytes = data.length + (rest.map List.length).sum := by
        simp [queuedBytes, hq]
      refine ⟨hret, ?_, fun _ hd => (by cases hd), fun _ _ => .inr trivial⟩
      intro _
      simp only [queuedBytes, Pump.unsettled] at hexact hb ⊢
      omega
  | writing data =>
    simp only [hp] at h hexact hlatch
    obtain rfl := Option.some.inj h
    exact ⟨hret, fun _ => hexact, fun _ hd => (by cases hd), fun _ _ => .inr trivial⟩
  | discharging size =>
    simp only [hp, Pump.unsettled] at h hexact hlatch
    simp only [ChargedInTime, hp] at hg
    obtain rfl := Option.some.inj h
    -- what is left of the gauge is on the queue
    have hleft : s.meter.low < s.meter.pending - size → s.queue ≠ [] := by
      intro hlow
      exact queue_ne_nil_of_queuedBytes (by omega)
    refine ⟨hret, ?_, ?_, ?_⟩
    · intro _
      simp only [subPending, FlowMeter.sub, Pump.unsettled, queuedBytes] at hexact ⊢
      omega
    · intro after hd hlow
      cases hd
      exact hleft hlow
    · intro _ _
      by_cases hlow : s.meter.pending - size ≤ s.meter.low
      · exact .inr hlow
      · exact .inl (hleft (by omega))
  | drained after =>
    simp only [hp] at h hexact hlatch
    split at h
    · obtain rfl := Option.some.inj h
      exact ⟨hret, fun _ => hexact, fun _ hd => (by cases hd), fun _ _ => .inr trivial⟩
    · rename_i hcond
      obtain rfl := Option.some.inj h
      refine ⟨hret, fun _ => hexact, fun _ hd => (by cases hd), ?_⟩
      intro _ hl
      rcases hlatch hl with hq | hw
      · exact .inl hq
      · exact absurd ⟨hl, hw⟩ hcond
  | unlatching =>
    simp only [hp] at h hexact hlatch
    split at h
    · obtain rfl := Option.some.inj h
      exact ⟨hret, fun _ => hexact, fun _ hd => (by cases hd), fun _ hl => by cases hl⟩
    · rename_i hcond
      obtain rfl := Option.some.inj h
      exact ⟨hret, fun _ => hexact, fun _ hd => (by cases hd), fun _ hl => absurd hl hcond⟩
  | resuming =>
    simp only [hp] at h hexact hlatch
    obtain rfl := Option.some.inj h
    exact ⟨hret, fun _ => hexact, fun _ hd => (by cases hd), fun _ => hlatch⟩
  | reporting =>
    simp only [hp] at h hexact hlatch
    obtain rfl := Option.some.inj h
    exact ⟨hret, fun _ => hexact, fun _ hd => (by cases hd), fun _ => hlatch⟩
  | stopped => exact absurd hp hrun

theorem step_clientInv {id : ConnectionId} {s t : Channel} {a : ChannelAction}
    (hs : s.ClientInv) (hg : s.ChargedInTime a) (h : s.step .client id a = some t) :
    t.ClientInv := by
  cases a with
  | delivery => exact deliveryStep_clientInv hs hg h
  | pump => exact pumpStep_clientInv hs hg h
  | deliver data =>
    obtain ⟨hret, hexact, hdrained, hlatch⟩ := hs
    simp only [step] at h
    split at h
    · simp_all
    · rename_i hd _
      rw [hd] at hexact
      obtain rfl := Option.some.inj h
      exact ⟨fun hr => hr.elim, hexact, hdrained, hlatch⟩
    · contradiction
  | loseReport =>
    obtain ⟨hret, hexact, hdrained, hlatch⟩ := hs
    simp only [step] at h
    split at h
    · rename_i hp
      have hrun : s.pump ≠ .stopped := by rw [hp]; simp
      replace hexact := hexact hrun
      replace hlatch := hlatch hrun
      rw [hp] at hexact hlatch
      obtain rfl := Option.some.inj h
      exact ⟨hret, fun _ => hexact, fun _ hd => (by cases hd), fun _ => hlatch⟩
    · contradiction
  | stopPump =>
    simp only [step] at h
    split at h
    all_goals
      cases h <;>
      exact ⟨hs.noRetract, fun hne => absurd rfl hne, fun _ hd => (by cases hd),
        fun hne => absurd rfl hne⟩
  | report =>
    obtain ⟨hret, hexact, hdrained, hlatch⟩ := hs
    simp only [step] at h
    split at h
    · obtain rfl := Option.some.inj h
      exact ⟨hret, hexact, hdrained, hlatch⟩
    · contradiction
  | tick =>
    obtain ⟨hret, hexact, hdrained, hlatch⟩ := hs
    simp only [step] at h
    split at h
    · rename_i hd
      rw [hd] at hexact
      split at h <;> (cases h; exact ⟨fun hr => hr.elim, hexact, hdrained, hlatch⟩)
    · contradiction
  | reset => cases h
  | other edge =>
    obtain ⟨hret, hexact, hdrained, hlatch⟩ := hs
    simp only [step] at h
    split at h
    · contradiction
    · obtain rfl := Option.some.inj h
      exact ⟨hret, hexact, hdrained, hlatch⟩

theorem init_clientInv (high low : Nat) : (init high low).ClientInv :=
  ⟨fun hr => hr.elim, fun _ => rfl, fun _ hd => (by cases hd), fun _ hl => by cases hl⟩

/-- **The client's gauge.** In every run in which each discharge finds its bytes charged and each
    latch is taken ahead of the pump's look at it: once the queue is empty, the pump idle and no
    delivery in progress, nothing is pending and the gauge is open. -/
theorem client_settles (id : ConnectionId) (high low : Nat) (as : List ChannelAction) (s : Channel)
    (hr : run (step .client id) (init high low) as = some s)
    (hm : Meets (step .client id) ChargedInTime (init high low) as) (hq : s.Quiet) : s.Clear := by
  have hI : s.ClientInv :=
    run_inv (fun _ _ _ hs hg h => step_clientInv hs hg h) (init_clientInv high low) hm hr
  obtain ⟨hqueue, hp, hd⟩ := hq
  have hrun : s.pump ≠ .stopped := by rw [hp]; simp
  refine ⟨?_, ?_⟩
  · have := hI.exact hrun
    rw [hd, hp, queuedBytes, hqueue] at this
    exact this
  · cases hl : s.meter.latched with
    | false => rfl
    | true =>
      have := hI.latch hrun hl
      rw [hqueue, hp] at this
      rcases this with h | h
      · exact absurd rfl h
      · exact h.elim

/-- Two payloads charged before the pump gets to them. -/
def clientBurst : List ChannelAction :=
  [.deliver [1, 2, 3, 4], .delivery, .delivery, .deliver [5, 6, 7], .delivery, .delivery, .delivery,
    .delivery, .pump, .pump, .pump, .pump, .pump, .pump, .pump, .pump, .pump, .pump]

/-- The pump writes and discharges a payload that is not charged yet. -/
def clientOvertaken : List ChannelAction :=
  [.deliver [1, 2, 3, 4], .delivery, .pump, .pump, .pump, .pump, .delivery]

theorem client_settles_burst :
    ∃ s, run (step .client ⟨7⟩) (init 6 2) clientBurst = some s ∧ s.Quiet ∧ s.charged = 7 ∧
      s.Clear :=
  have hr := Option.eq_some_of_isSome
    (show (run (step .client ⟨7⟩) (init 6 2) clientBurst).isSome = true by decide +kernel)
  have hq : Quiet ((run (step .client ⟨7⟩) (init 6 2) clientBurst).get (by decide +kernel)) :=
    ⟨by decide +kernel, by decide +kernel, by decide +kernel⟩
  ⟨_, hr, hq, by decide +kernel, client_settles ⟨7⟩ 6 2 clientBurst _ hr (by decide +kernel) hq⟩

/-- Everything is written and four bytes stay pending. -/
theorem client_overtaken_pending :
    ¬ ∀ (id : ConnectionId) (high low : Nat) (as : List ChannelAction) (s : Channel),
      run (step .client id) (init high low) as = some s → s.Quiet → s.Clear := by
  intro h
  have hr := Option.eq_some_of_isSome
    (show (run (step .client ⟨7⟩) (init 6 2) clientOvertaken).isSome = true by decide +kernel)
  have := (h ⟨7⟩ 6 2 clientOvertaken _ hr
    ⟨by decide +kernel, by decide +kernel, by decide +kernel⟩).1
  exact absurd this (by decide +kernel)

end Channel

end RemoteX11.Flow
