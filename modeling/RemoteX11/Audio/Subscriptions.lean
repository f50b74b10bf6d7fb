/-
  Does a subscription to the mix last as long as its lane (`audio/mix.rs`)?

  A subscription leaves the list by a sweep or by a finish. A sweep that follows a closed lane, and a finish
  at the end of the stream or after a failed start, are as they should be. Two others are not: a finish
  that was decided while the list was empty, when an attach has come in between, and a sweep that finds
  the lane of a subscriber full at its opening. `subscriptions_kept_iff` says that these are all.
-/
import RemoteX11.Audio.Captures
import RemoteX11.Audio.Mix
import RemoteX11.Lib.Calls

namespace RemoteX11.Audio

open RemoteX11.Lib RemoteX11.Protocol RemoteX11.Queue

/-! ## The fan-out -/

namespace MixSubscriber

variable (seq : UInt32) (data : Bytes)

/-- What no turn changes of a subscriber. -/
def Same (sub sub' : MixSubscriber) : Prop :=
  sub'.conn = sub.conn ∧ sub'.outbound = sub.outbound ∧ sub'.serial = sub.serial

theorem shipData_spec (lanes : Lanes) (sub : MixSubscriber) :
    Same sub (shipData seq data lanes sub).2.1 ∧
    (∀ k, ((shipData seq data lanes sub).1 k).isOpen = (lanes k).isOpen) ∧
    ((shipData seq data lanes sub).2.2 = true → (lanes sub.outbound).isOpen = false) := by
  have hgrows : ∀ k, ((lanes.send sub.outbound (.binary (.streamData ⟨sub.conn, seq, data⟩))).2 k).isOpen =
      (lanes k).isOpen := fun k => Lanes.send_grows.isOpen
  unfold shipData
  split
  · rename_i heq
    rw [heq] at hgrows
    exact ⟨⟨rfl, rfl, rfl⟩, hgrows, fun h => absurd h (by simp)⟩
  · rename_i heq
    rw [heq] at hgrows
    exact ⟨⟨rfl, rfl, rfl⟩, hgrows, fun h => absurd h (by simp)⟩
  · rename_i heq
    have hclosed := Lanes.send_closed (congrArg Prod.fst heq)
    rw [heq] at hgrows
    exact ⟨⟨rfl, rfl, rfl⟩, hgrows, fun _ => hclosed⟩

/-- The lane is closed, or has what the opening of the subscriber needs. -/
def Openable (lanes : Lanes) (sub : MixSubscriber) : Prop :=
  sub.opened = true ∨ (lanes sub.outbound).isOpen = false ∨ (lanes sub.outbound).hasRoom = true

instance (lanes : Lanes) (sub : MixSubscriber) : Decidable (sub.Openable lanes) :=
  inferInstanceAs (Decidable (_ ∨ _ ∨ _))

/-- **One turn.** An openable subscriber is dead only on a closed lane; one that is not openable is dead
on an open one. -/
theorem ship_spec (lanes : Lanes) (sub : MixSubscriber) :
    Same sub (ship seq data lanes sub).2.1 ∧
    (∀ k, ((ship seq data lanes sub).1 k).isOpen = (lanes k).isOpen) ∧
    (((ship seq data lanes sub).2.2 = true → (lanes sub.outbound).isOpen = false) ↔
      sub.Openable lanes) := by
  have hgrows : ∀ k, ((lanes.send sub.outbound sub.openFrame).2 k).isOpen = (lanes k).isOpen :=
    fun k => Lanes.send_grows.isOpen
  unfold ship
  split
  · rename_i hopened
    obtain ⟨hsame, hopen, hdead⟩ := shipData_spec seq data lanes sub
    exact ⟨hsame, hopen, iff_of_true hdead (.inl hopened)⟩
  · rename_i hopened
    split
    · rename_i e lanes' heq
      rw [heq] at hgrows
      refine ⟨⟨rfl, rfl, rfl⟩, hgrows, ?_⟩
      have htakes : (lanes sub.outbound).takes ≠ true := by
        intro htakes
        cases (Lanes.send_takes htakes).symm.trans (congrArg Prod.fst heq)
      constructor
      · exact fun hclosed => .inr (.inl (hclosed rfl))
      · rintro (hop | hclosed | hroom)
        · exact absurd hop hopened
        · exact fun _ => hclosed
        · intro _
          cases hl : (lanes sub.outbound).isOpen with
          | false => rfl
          | true => exact absurd (by rw [Lane.takes, hl, hroom]; rfl) htakes
    · rename_i lanes' heq
      have htakes := Lanes.send_ok (congrArg Prod.fst heq)
      rw [heq] at hgrows
      obtain ⟨hsame, hopen, hdead⟩ := shipData_spec seq data lanes'
        { sub with opened := true }
      have hroom : (lanes sub.outbound).hasRoom = true := by
        unfold Lane.takes at htakes
        exact (Bool.and_eq_true_iff.mp htakes).2
      refine ⟨hsame, fun k => (hopen k).trans (hgrows k), iff_of_true ?_ (.inr (.inr hroom))⟩
      exact fun h => (hgrows _).symm.trans (hdead h)

/-- Every subscriber is openable when its turn comes. -/
def AllOpenable (seq : UInt32) (data : Bytes) : List MixSubscriber → Lanes → Prop
  | [], _ => True
  | sub :: rest, lanes => sub.Openable lanes ∧ AllOpenable seq data rest (ship seq data lanes sub).1

instance decAllOpenable (seq : UInt32) (data : Bytes) :
    (subs : List MixSubscriber) → (lanes : Lanes) → Decidable (AllOpenable seq data subs lanes)
  | [], _ => isTrue trivial
  | sub :: rest, lanes =>
    have := decAllOpenable seq data rest (ship seq data lanes sub).1
    inferInstanceAs (Decidable (_ ∧ _))

/-- **The loop.** All are openable in their turn if and only if all that are dead have a closed lane. -/
theorem shipAll_spec (subs : List MixSubscriber) (lanes : Lanes) :
    List.Forall₂ (fun sub r => Same sub r.1) subs (shipAll seq data subs lanes).2 ∧
    (∀ k, ((shipAll seq data subs lanes).1 k).isOpen = (lanes k).isOpen) ∧
    ((∀ r ∈ (shipAll seq data subs lanes).2, r.2 = true → (lanes r.1.outbound).isOpen = false) ↔
      AllOpenable seq data subs lanes) := by
  induction subs generalizing lanes with
  | nil => exact ⟨.nil, fun _ => rfl, iff_of_true (fun r hr => absurd hr List.not_mem_nil) trivial⟩
  | cons sub rest ih =>
    obtain ⟨hsame, hopen, hdead⟩ := ship_spec seq data lanes sub
    obtain ⟨hrest, hopen', hdead'⟩ := ih (ship seq data lanes sub).1
    refine ⟨.cons hsame hrest, fun k => (hopen' k).trans (hopen k), ?_⟩
    rw [AllOpenable, ← hdead, ← hdead']
    simp only [shipAll, List.mem_cons, forall_eq_or_imp, hsame.2.1, hopen]

/-- The loop has a turn for every subscriber, and changes no id. -/
theorem map_shipAll {α : Type} (f : MixSubscriber → α) (hf : ∀ sub sub', Same sub sub' → f sub' = f sub)
    (subs : List MixSubscriber) (lanes : Lanes) :
    (shipAll seq data subs lanes).2.map (fun r => f r.1) = subs.map f := by
  have hsame := (shipAll_spec seq data subs lanes).1
  generalize (shipAll seq data subs lanes).2 = shipped at hsame
  induction hsame with
  | nil => rfl
  | cons h _ ih => rw [List.map_cons, List.map_cons, ih, hf _ _ h]

variable {seq data}

theorem of_mem_shipAll {subs : List MixSubscriber} {lanes : Lanes} {r : MixSubscriber × Bool}
    (h : r ∈ (shipAll seq data subs lanes).2) : ∃ sub ∈ subs, Same sub r.1 := by
  have hsame := (shipAll_spec seq data subs lanes).1
  generalize (shipAll seq data subs lanes).2 = shipped at hsame h ⊢
  induction hsame with
  | nil => exact absurd h List.not_mem_nil
  | cons hs _ ih =>
    rcases List.mem_cons.mp h with rfl | h
    · exact ⟨_, List.mem_cons_self, hs⟩
    · obtain ⟨sub, hmem, hsub⟩ := ih h
      exact ⟨sub, List.mem_cons_of_mem _ hmem, hsub⟩

theorem mem_shipAll {subs : List MixSubscriber} {lanes : Lanes} {sub : MixSubscriber}
    (h : sub ∈ subs) : ∃ r ∈ (shipAll seq data subs lanes).2, Same sub r.1 := by
  have hsame := (shipAll_spec seq data subs lanes).1
  generalize (shipAll seq data subs lanes).2 = shipped at hsame ⊢
  induction hsame with
  | nil => exact absurd h List.not_mem_nil
  | cons hs _ ih =>
    rcases List.mem_cons.mp h with rfl | h
    · exact ⟨_, List.mem_cons_self, hs⟩
    · obtain ⟨r, hmem, hr⟩ := ih h
      exact ⟨r, List.mem_cons_of_mem _ hmem, hr⟩

/-- The list that the sweep leaves. -/
theorem mem_retained {shipped : List (MixSubscriber × Bool)} {sub : MixSubscriber}
    (hconns : (shipped.map fun r => r.1.conn).Nodup) :
    sub ∈ retained shipped ↔ (sub, false) ∈ shipped := by
  unfold retained
  simp only [List.mem_filter, List.mem_map, Bool.not_eq_eq_eq_not, Bool.not_true, List.contains_eq_mem,
    decide_eq_false_iff_not, Prod.exists, not_exists, not_and]
  constructor
  · rintro ⟨⟨sub', dead, hmem, rfl⟩, hno⟩
    cases dead with
    | false => exact hmem
    | true => exact absurd rfl (hno sub' true ⟨hmem, rfl⟩)
  · intro hmem
    refine ⟨⟨sub, false, hmem, rfl⟩, ?_⟩
    rintro other dead ⟨hother, rfl⟩ hconn
    have := List.inj_on_of_nodup_map hconns hother hmem hconn
    simp at this

theorem closeAll_isOpen (subs : List MixSubscriber) (lanes : Lanes) (k : Nat) :
    (closeAll subs lanes k).isOpen = (lanes k).isOpen := by
  induction subs generalizing lanes with
  | nil => rfl
  | cons sub rest ih =>
    rw [closeAll, ih]
    split
    · exact Lanes.send_grows.isOpen
    · rfl

end MixSubscriber

/-- The recorder has not fanned out anything. -/
def Recorder.silent : Recorder → Bool
  | .starting => true
  | .finishing close _ => !close
  | _ => false

namespace Mix

open MixSubscriber

/-! ## The invariant -/

structure Inv (s : Mix) : Prop where
  running : s.running = s.recorder.isSome
  idle : s.recorder = none → s.subscribers = []
  unopened : ∀ r, s.recorder = some r → r.silent = true → ∀ sub ∈ s.subscribers, sub.opened = false
  counted : s.recorder = some .starting → s.subscribers ≠ []
  failed : ∀ ending, s.recorder = some (.finishing false ending) → ending = .startFailed
  lane : ∀ sub ∈ s.subscribers, s.added[sub.serial]? = some sub.outbound
  conns : (s.subscribers.map MixSubscriber.conn).Nodup
  serials : (s.subscribers.map MixSubscriber.serial).Nodup
  listed : ∀ sub ∈ s.subscribers, ∀ cause, (sub.serial, cause) ∉ s.removed
  past : ∀ x ∈ s.removed, x.1 < s.added.length

theorem Inv.serial_lt {s : Mix} (hs : s.Inv) {sub : MixSubscriber} (h : sub ∈ s.subscribers) :
    sub.serial < s.added.length :=
  (List.getElem?_eq_some_iff.mp (hs.lane sub h)).1

theorem Inv.with_lanes {s : Mix} (hs : s.Inv) (lanes : Lanes) : Inv { s with lanes := lanes } :=
  ⟨hs.running, hs.idle, hs.unopened, hs.counted, hs.failed, hs.lane, hs.conns, hs.serials, hs.listed,
    hs.past⟩

/-- The recorder goes on to a turn with subscribers that may be opened, or to the end of a failed
start. -/
theorem Inv.with_recorder {s : Mix} (hs : s.Inv) {r r' : Recorder} (hr : s.recorder = some r)
    (h : r'.silent = false ∨ r.silent = true ∧ r' = .finishing false .startFailed) :
    Inv { s with recorder := some r' } where
  running := by
    have := hs.running
    rw [hr] at this
    exact this
  idle := by
    intro hnone
    contradiction
  unopened := by
    intro r'' hr'' hsilent
    obtain rfl : r' = r'' := Option.some.inj hr''
    rcases h with h | ⟨h, -⟩
    · rw [h] at hsilent
      contradiction
    · exact hs.unopened r hr h
  counted := by
    intro hstart
    obtain rfl : r' = .starting := Option.some.inj hstart
    rcases h with h | ⟨-, h⟩ <;> contradiction
  failed := by
    intro ending hfin
    obtain rfl : r' = .finishing false ending := Option.some.inj hfin
    rcases h with h | ⟨-, h⟩
    · contradiction
    · exact (Recorder.finishing.inj h).2
  lane := hs.lane
  conns := hs.conns
  serials := hs.serials
  listed := hs.listed
  past := hs.past

theorem Inv.attach {s : Mix} (hs : s.Inv) (lane : Nat) (conn : ConnectionId) :
    (s.attach lane conn).Inv := by
  unfold Mix.attach
  split
  · exact hs
  · rename_i hnew
    have hrec : ∀ r, (if s.running then s.recorder else some .starting) = some r →
        s.recorder = some r ∨ s.recorder = none ∧ r = .starting := by
      intro r h
      have hrun := hs.running
      cases hrecorder : s.recorder with
      | none =>
        rw [hrecorder] at hrun
        simp only [hrun, Option.isSome_none, Bool.false_eq_true, if_false, Option.some.injEq] at h
        exact .inr ⟨rfl, h.symm⟩
      | some r' =>
        rw [hrecorder] at hrun
        simp only [hrun, Option.isSome_some, if_true, hrecorder] at h
        exact .inl h
    have hlt : ∀ sub ∈ s.subscribers, sub.serial ≠ s.added.length := by
      intro sub h
      have := hs.serial_lt h
      omega
    constructor
    · show true = (if s.running then s.recorder else some .starting).isSome
      have hrun := hs.running
      cases hsome : s.recorder.isSome with
      | true => rw [hrun, hsome, if_pos rfl, hsome]
      | false =>
        rw [hrun, hsome]
        rfl
    · intro hnone
      exfalso
      have hrun := hs.running
      cases hrecorder : s.recorder with
      | none => simp [hrun, hrecorder] at hnone
      | some r => simp [hrun, hrecorder] at hnone
    · intro r hr hsilent
      apply forall_mem_snoc
      · rcases hrec r hr with h | ⟨h, -⟩
        · exact hs.unopened r h hsilent
        · rw [hs.idle h]
          exact fun sub h => absurd h List.not_mem_nil
      · rfl
    · intro _ hnil
      simp at hnil
    · intro ending hfin
      rcases hrec _ hfin with h | ⟨-, h⟩
      · exact hs.failed ending h
      · contradiction
    · apply forall_mem_snoc
      · intro sub h
        rw [List.getElem?_append_left (hs.serial_lt h)]
        exact hs.lane sub h
      · simp
    · rw [List.map_append]
      refine hs.conns.append (List.nodup_singleton _) ?_
      simpa using hnew
    · rw [List.map_append]
      refine hs.serials.append (List.nodup_singleton _) ?_
      simpa using hlt
    · apply forall_mem_snoc
      · exact hs.listed
      · intro cause hmem
        exact Nat.lt_irrefl _ (hs.past _ hmem)
    · intro x hx
      have := hs.past x hx
      rw [List.length_append]
      omega

/-- The connections and the numbers of the subscribers are distinct while they are served. -/
theorem Inv.shipped_conns {s : Mix} (hs : s.Inv) (seq : UInt32) (data : Bytes) :
    ((MixSubscriber.shipAll seq data s.subscribers s.lanes).2.map fun r => r.1.conn).Nodup := by
  rw [map_shipAll _ _ _ fun _ _ h => h.1]
  exact hs.conns

theorem Inv.shipped_serials {s : Mix} (hs : s.Inv) (seq : UInt32) (data : Bytes) :
    ((MixSubscriber.shipAll seq data s.subscribers s.lanes).2.map fun r => r.1.serial).Nodup := by
  rw [map_shipAll _ _ _ fun _ _ h => h.2.2]
  exact hs.serials

/-- What the sweep leaves, with what each subscriber was before. -/
theorem mem_packet {s : Mix} (hs : s.Inv) {seq : UInt32} {data : Bytes} {left : Nat} {stop : Bool}
    {sub : MixSubscriber} (h : sub ∈ (s.packet left stop seq data).subscribers) :
    (sub, false) ∈ (MixSubscriber.shipAll seq data s.subscribers s.lanes).2 ∧
      ∃ old ∈ s.subscribers, Same old sub := by
  have hmem := (MixSubscriber.mem_retained (hs.shipped_conns _ _)).mp h
  exact ⟨hmem, of_mem_shipAll hmem⟩

theorem Inv.packet {s : Mix} (hs : s.Inv) {left : Nat} {stop : Bool} (hr : s.recorder.isSome)
    (seq : UInt32) (data : Bytes) : (s.packet left stop seq data).Inv := by
  constructor
  · exact hs.running.trans hr
  · intro hnone
    contradiction
  · intro r hrec hsilent
    obtain rfl := Option.some.inj hrec
    contradiction
  · intro hstart
    cases hstart
  · intro ending hfin
    cases hfin
  · intro sub h
    obtain ⟨-, old, hold, hsame⟩ := mem_packet hs h
    rw [hsame.2.1, hsame.2.2]
    exact hs.lane old hold
  · have hall : (((MixSubscriber.shipAll seq data s.subscribers s.lanes).2.map Prod.fst).map
        MixSubscriber.conn).Nodup := by
      rw [List.map_map]
      exact hs.shipped_conns seq data
    exact hall.sublist (List.filter_sublist.map _)
  · have hall : (((MixSubscriber.shipAll seq data s.subscribers s.lanes).2.map Prod.fst).map
        MixSubscriber.serial).Nodup := by
      rw [List.map_map]
      exact hs.shipped_serials seq data
    exact hall.sublist (List.filter_sublist.map _)
  · intro sub h cause hmem
    obtain ⟨halive, old, hold, hsame⟩ := mem_packet hs h
    rcases List.mem_append.mp hmem with hmem | hmem
    · exact hs.listed old hold cause (hsame.2.2 ▸ hmem)
    · -- the dead subscriber of this number would be another one
      obtain ⟨r, hr, heq⟩ := List.mem_map.mp hmem
      obtain ⟨hr, hdead⟩ := List.mem_filter.mp hr
      have := List.inj_on_of_nodup_map (hs.shipped_serials _ _) hr halive (congrArg Prod.fst heq)
      rw [this] at hdead
      contradiction
  · intro x hx
    rcases List.mem_append.mp hx with hx | hx
    · exact hs.past x hx
    · obtain ⟨r, hr, rfl⟩ := List.mem_map.mp hx
      obtain ⟨old, hold, hsame⟩ := of_mem_shipAll (List.mem_filter.mp hr).1
      show r.1.serial < s.added.length
      rw [hsame.2.2]
      exact hs.serial_lt hold

theorem finish_subscribers {s : Mix} (hs : s.Inv) {close : Bool} {ending : Ending}
    (hr : s.recorder = some (.finishing close ending)) : (s.finish close ending).subscribers = [] := by
  cases close with
  | true => rfl
  | false =>
    apply List.filter_eq_nil_iff.mpr
    intro sub hsub
    rw [hs.unopened _ hr rfl sub hsub]
    exact Bool.false_ne_true

/-- A finish removes the whole list, for the reason it has. -/
theorem mem_finish_removed {s : Mix} (hs : s.Inv) {close : Bool} {ending : Ending}
    (hr : s.recorder = some (.finishing close ending)) {x : Nat × Option Ending} :
    x ∈ (s.finish close ending).removed ↔
      x ∈ s.removed ∨ ∃ sub ∈ s.subscribers, x = (sub.serial, some ending) := by
  have hdropped : (if close then s.subscribers else s.subscribers.filter fun sub => !sub.opened) =
      s.subscribers := by
    cases close with
    | true => rfl
    | false =>
      apply List.filter_eq_self.mpr
      intro sub hsub
      rw [hs.unopened _ hr rfl sub hsub]
      rfl
  unfold finish
  dsimp only
  rw [hdropped, List.mem_append, List.mem_map]
  simp only [eq_comm]

theorem Inv.finish {s : Mix} (hs : s.Inv) {close : Bool} {ending : Ending}
    (hr : s.recorder = some (.finishing close ending)) : (s.finish close ending).Inv := by
  have hnil := finish_subscribers hs hr
  constructor
  · rfl
  · exact fun _ => hnil
  · intro r hrec
    contradiction
  · intro hstart
    contradiction
  · intro e hfin
    contradiction
  · rw [hnil]
    exact fun sub h => absurd h List.not_mem_nil
  · rw [hnil]
    exact List.nodup_nil
  · rw [hnil]
    exact List.nodup_nil
  · rw [hnil]
    exact fun sub h => absurd h List.not_mem_nil
  · intro x hx
    rcases (mem_finish_removed hs hr).mp hx with hx | ⟨sub, hsub, rfl⟩
    · exact hs.past x hx
    · exact hs.serial_lt hsub

/-- **One step** keeps the invariant. -/
theorem step_inv {s t : Mix} {a : Action} (hs : s.Inv) (h : s.step a = some t) : t.Inv := by
  cases a with
  | attach lane conn =>
    obtain rfl := Option.some.inj h
    exact hs.attach lane conn
  | startFails =>
    simp only [step] at h
    split at h
    · obtain rfl := Option.some.inj h
      exact hs.with_recorder ‹_› (.inr ⟨rfl, rfl⟩)
    · contradiction
  | count =>
    simp only [step] at h
    split at h
    · rename_i hr
      split at h
      · rename_i hempty
        exact absurd (List.isEmpty_iff.mp hempty) (hs.counted hr)
      · obtain rfl := Option.some.inj h
        exact hs.with_recorder hr (.inl rfl)
    · contradiction
  | read packets =>
    simp only [step] at h
    split at h
    · obtain rfl := Option.some.inj h
      exact hs.with_recorder ‹_› (.inl rfl)
    · contradiction
  | packet seq data =>
    simp only [step] at h
    split at h
    · rename_i hr
      obtain rfl := Option.some.inj h
      exact hs.packet (by rw [hr]; rfl) seq data
    · contradiction
  | endPush =>
    simp only [step] at h
    split at h
    · obtain rfl := Option.some.inj h
      exact hs.with_recorder ‹_› (.inl rfl)
    · obtain rfl := Option.some.inj h
      exact hs.with_recorder ‹_› (.inl rfl)
    · contradiction
  | endOfStream =>
    simp only [step] at h
    split at h
    · obtain rfl := Option.some.inj h
      exact hs.with_recorder ‹_› (.inl rfl)
    · contradiction
  | finish =>
    simp only [step] at h
    split at h
    · obtain rfl := Option.some.inj h
      exact hs.finish ‹_›
    · contradiction
  | offer lane frame =>
    obtain rfl := Option.some.inj h
    exact hs.with_lanes _
  | take lane =>
    obtain rfl := Option.some.inj h
    exact hs.with_lanes _
  | close lane =>
    obtain rfl := Option.some.inj h
    exact hs.with_lanes _

theorem inv_init (lanes : Lanes) : (init lanes).Inv where
  running := rfl
  idle := fun _ => rfl
  unopened := fun _ h => nomatch h
  counted := fun h => nomatch h
  failed := fun _ h => nomatch h
  lane := fun _ h => absurd h List.not_mem_nil
  conns := List.nodup_nil
  serials := List.nodup_nil
  listed := fun _ h => absurd h List.not_mem_nil
  past := fun _ h => absurd h List.not_mem_nil

/-! ## Subscriptions that last -/

/-- A subscription whose lane is open is in the list of a recorder that runs, or was removed by one that
reached the end of its stream or failed to start. -/
def Kept (s : Mix) : Prop :=
  ∀ n lane, s.added[n]? = some lane → (s.lanes lane).isOpen = true →
    (s.recorder.isSome = true ∧ ∃ sub ∈ s.subscribers, sub.serial = n) ∨
      ∃ ending, ending ≠ .lastListenerLeft ∧ (n, some ending) ∈ s.removed

/-- Where a live subscriber is not dropped: a packet that can open whom it has to open, and a recorder
that stops for lack of listeners and still has none at its finish. -/
def KeepsListeners (s : Mix) : Action → Prop
  | .packet seq data => AllOpenable seq data s.subscribers s.lanes
  | .finish =>
    s.recorder = some (.finishing true .lastListenerLeft) →
      ∀ sub ∈ s.subscribers, (s.lanes sub.outbound).isOpen = false
  | _ => True

instance (s : Mix) (a : Action) : Decidable (s.KeepsListeners a) :=
  match a with
  | .packet seq data => inferInstanceAs (Decidable (AllOpenable seq data s.subscribers s.lanes))
  | .finish =>
    inferInstanceAs (Decidable (s.recorder = some (.finishing true .lastListenerLeft) →
      ∀ sub ∈ s.subscribers, (s.lanes sub.outbound).isOpen = false))
  | .attach _ _ | .startFails | .count | .read _ | .endPush | .endOfStream | .offer _ _ | .take _
  | .close _ => isTrue trivial

/-- Steps that remove nobody and open no lane. -/
theorem Kept.of_same {s t : Mix} (hs : s.Kept) (hadded : t.added = s.added)
    (hsubs : t.subscribers = s.subscribers) (hremoved : t.removed = s.removed)
    (hrec : s.recorder.isSome = true → t.recorder.isSome = true)
    (hopen : ∀ k, (t.lanes k).isOpen = true → (s.lanes k).isOpen = true) : t.Kept := by
  intro n lane hn hlane
  rw [hadded] at hn
  rw [hsubs, hremoved]
  rcases hs n lane hn (hopen lane hlane) with ⟨hr, hsub⟩ | hrem
  · exact .inl ⟨hrec hr, hsub⟩
  · exact .inr hrem

theorem Kept.attach {s : Mix} (hi : s.Inv) (hs : s.Kept) (lane : Nat) (conn : ConnectionId) :
    (s.attach lane conn).Kept := by
  have hinv := hi.attach lane conn
  unfold Mix.attach at hinv ⊢
  split
  · exact hs
  · rename_i hnew
    rw [if_neg hnew] at hinv
    have hrec := hinv.running.symm
    intro n l hn hl
    by_cases hlt : n < s.added.length
    · rw [List.getElem?_append_left hlt] at hn
      rcases hs n l hn hl with ⟨-, sub, hsub, hserial⟩ | hrem
      · exact .inl ⟨hrec, sub, List.mem_append_left _ hsub, hserial⟩
      · exact .inr hrem
    · have hlen := (List.getElem?_eq_some_iff.mp hn).1
      rw [List.length_append, List.length_singleton] at hlen
      exact .inl ⟨hrec, _, List.mem_append_right _ List.mem_cons_self,
        by show s.added.length = n; omega⟩

/-- **A packet** keeps the live subscribers if and only if all are openable in their turn. -/
theorem kept_packet {s : Mix} (hi : s.Inv) (hs : s.Kept) (left : Nat) (stop : Bool) (seq : UInt32)
    (data : Bytes) :
    (s.packet left stop seq data).Kept ↔ AllOpenable seq data s.subscribers s.lanes := by
  obtain ⟨-, hopen, hdead⟩ := MixSubscriber.shipAll_spec seq data s.subscribers s.lanes
  rw [← hdead]
  constructor
  · rintro hkept ⟨sub, dead⟩ hmem hdead
    obtain rfl : dead = true := hdead
    obtain ⟨old, hold, hsame⟩ := of_mem_shipAll hmem
    have hlane : s.added[sub.serial]? = some sub.outbound := by
      rw [hsame.2.1, hsame.2.2]
      exact hi.lane old hold
    cases hl : (s.lanes sub.outbound).isOpen with
    | false => rfl
    | true =>
      exfalso
      rcases hkept _ _ hlane ((hopen _).trans hl) with ⟨-, other, hother, heq⟩ | ⟨ending, -, hrem⟩
      · have halive := (MixSubscriber.mem_retained (hi.shipped_conns _ _)).mp hother
        have := List.inj_on_of_nodup_map (hi.shipped_serials _ _) halive hmem heq
        simp at this
      · rcases List.mem_append.mp hrem with hrem | hrem
        · exact hi.listed old hold _ (hsame.2.2 ▸ hrem)
        · obtain ⟨_, -, heq⟩ := List.mem_map.mp hrem
          simp at heq
  · intro hdead n lane hn hlane
    have hlane' : (s.lanes lane).isOpen = true := (hopen lane).symm.trans hlane
    rcases hs n lane hn hlane' with ⟨-, old, hold, rfl⟩ | ⟨ending, hne, hrem⟩
    · left
      refine ⟨rfl, ?_⟩
      obtain ⟨⟨sub, dead⟩, hmem, hsame⟩ := mem_shipAll hold
      have hout : old.outbound = lane := Option.some.inj ((hi.lane old hold).symm.trans hn)
      cases dead with
      | false => exact ⟨sub, (MixSubscriber.mem_retained (hi.shipped_conns _ _)).mpr hmem, hsame.2.2⟩
      | true =>
        have hclosed := hdead _ hmem rfl
        rw [hsame.2.1, hout, hlane'] at hclosed
        contradiction
    · exact .inr ⟨ending, hne, List.mem_append_left _ hrem⟩

/-- **A finish** keeps the live subscribers if and only if it has none, or has its reason. -/
theorem kept_finish {s : Mix} (hi : s.Inv) (hs : s.Kept) {close : Bool} {ending : Ending}
    (hr : s.recorder = some (.finishing close ending)) :
    (s.finish close ending).Kept ↔ s.KeepsListeners .finish := by
  have hopen : ∀ k, ((s.finish close ending).lanes k).isOpen = (s.lanes k).isOpen := by
    intro k
    cases close with
    | true => exact closeAll_isOpen _ _ _
    | false => rfl
  have hnil := finish_subscribers hi hr
  constructor
  · intro hkept hlast sub hsub
    obtain ⟨rfl, rfl⟩ := Recorder.finishing.inj (Option.some.inj (hr.symm.trans hlast))
    cases hl : (s.lanes sub.outbound).isOpen with
    | false => rfl
    | true =>
      exfalso
      rcases hkept _ _ (hi.lane sub hsub) ((hopen _).trans hl) with ⟨hsome, -⟩ | ⟨e, hne, hrem⟩
      · contradiction
      · rcases (mem_finish_removed hi hr).mp hrem with hrem | ⟨_, -, heq⟩
        · exact hi.listed sub hsub _ hrem
        · exact hne (Option.some.inj (Prod.mk.inj heq).2)
  · intro hkeeps n lane hn hlane
    have hlane' : (s.lanes lane).isOpen = true := (hopen lane).symm.trans hlane
    right
    rcases hs n lane hn hlane' with ⟨-, sub, hsub, rfl⟩ | ⟨e, hne, hrem⟩
    · refine ⟨ending, ?_, (mem_finish_removed hi hr).mpr (.inr ⟨sub, hsub, rfl⟩)⟩
      rintro rfl
      have hclose : close = true := by
        cases close with
        | true => rfl
        | false => exact absurd (hi.failed _ hr) (by decide)
      subst hclose
      have hclosed := hkeeps hr sub hsub
      have hout : sub.outbound = lane := Option.some.inj ((hi.lane sub hsub).symm.trans hn)
      rw [hout, hlane'] at hclosed
      contradiction
    · exact ⟨e, hne, (mem_finish_removed hi hr).mpr (.inl hrem)⟩

/-- **One step** that starts with all live subscribers kept. -/
theorem step_kept_iff {s t : Mix} {a : Action} (hi : s.Inv) (hs : s.Kept) (h : s.step a = some t) :
    t.Kept ↔ s.KeepsListeners a := by
  cases a with
  | attach lane conn =>
    obtain rfl := Option.some.inj h
    exact iff_of_true (hs.attach hi lane conn) trivial
  | packet seq data =>
    simp only [step] at h
    split at h
    · obtain rfl := Option.some.inj h
      exact kept_packet hi hs _ _ seq data
    · contradiction
  | finish =>
    simp only [step] at h
    split at h
    · obtain rfl := Option.some.inj h
      exact kept_finish hi hs ‹_›
    · contradiction
  | count =>
    simp only [step] at h
    split at h
    · split at h
      · obtain rfl := Option.some.inj h
        exact iff_of_true (hs.of_same rfl rfl rfl (fun _ => rfl) fun _ h => h) trivial
      · obtain rfl := Option.some.inj h
        exact iff_of_true (hs.of_same rfl rfl rfl (fun _ => rfl) fun _ h => h) trivial
    · contradiction
  | endPush =>
    simp only [step] at h
    split at h
    · obtain rfl := Option.some.inj h
      exact iff_of_true (hs.of_same rfl rfl rfl (fun _ => rfl) fun _ h => h) trivial
    · obtain rfl := Option.some.inj h
      exact iff_of_true (hs.of_same rfl rfl rfl (fun _ => rfl) fun _ h => h) trivial
    · contradiction
  | startFails | read packets | endOfStream =>
    simp only [step] at h
    split at h
    · obtain rfl := Option.some.inj h
      exact iff_of_true (hs.of_same rfl rfl rfl (fun _ => rfl) fun _ h => h) trivial
    · contradiction
  | offer lane frame =>
    obtain rfl := Option.some.inj h
    refine iff_of_true (hs.of_same rfl rfl rfl id fun k hk => ?_) trivial
    exact Lanes.send_grows.isOpen.symm.trans hk
  | take lane =>
    obtain rfl := Option.some.inj h
    refine iff_of_true (hs.of_same rfl rfl rfl id fun k hk => ?_) trivial
    by_cases heq : k = lane
    · subst heq
      simpa using hk
    · simpa [heq] using hk
  | close lane =>
    obtain rfl := Option.some.inj h
    refine iff_of_true (hs.of_same rfl rfl rfl id fun k hk => ?_) trivial
    by_cases heq : k = lane
    · subst heq
      simp at hk
    · simpa [heq] using hk

theorem kept_init (lanes : Lanes) : (init lanes).Kept := by
  intro n lane hn
  exact absurd hn (by simp [init])

/-- **Subscriptions to the mix.** The list is empty whenever no recorder runs. The live subscribers are
kept in all states of a run if and only if every packet finds room for the openings it owes, and every
recorder that stops for lack of listeners still has no live one at its finish. -/
theorem subscriptions_kept_iff (lanes : Lanes) (as : List Action) (s : Mix)
    (hr : run step (init lanes) as = some s) :
    (s.running = false → s.subscribers = []) ∧
    ((∀ pre t, pre <+: as → run step (init lanes) pre = some t → t.Kept) ↔
      Meets step KeepsListeners (init lanes) as) := by
  have hinv : s.Inv := run_inv_all (fun _ _ _ => step_inv) (inv_init lanes) hr
  constructor
  · intro hrunning
    apply hinv.idle
    have := hinv.running
    rw [hrunning] at this
    exact Option.isNone_iff_eq_none.mp (by simpa using this.symm)
  · have hstep : ∀ s a t, Inv s → Kept s → step s a = some t → Inv t ∧ (Kept t ↔ s.KeepsListeners a) :=
      fun _ _ _ hi hs h => ⟨step_inv hi h, step_kept_iff hi hs h⟩
    exact states_iff_meets_of_inv hstep (inv_init lanes) (kept_init lanes) hr

/-- Every lane is open and empty. -/
def freeLanes : Lanes := fun _ => ⟨[], true, []⟩

/-- A client comes, hears a packet and goes; the recorder stops, and the next client starts another. -/
def oneAfterTheOther : List Action :=
  [.attach 0 ⟨7⟩, .count, .read 1, .packet 1 [5], .endPush, .close 0, .read 1, .packet 2 [6], .endPush,
    .finish, .attach 1 ⟨8⟩, .count, .read 1, .packet 1 [7]]

/-- The next client comes between the last packet and the finish. -/
def joinsTheLeaving : List Action :=
  [.attach 0 ⟨7⟩, .count, .close 0, .read 1, .packet 1 [5], .attach 1 ⟨8⟩, .endPush, .finish]

theorem subscriptions_kept_iff_turns :
    (run step (init freeLanes) oneAfterTheOther).isSome = true ∧
      ∀ pre t, pre <+: oneAfterTheOther → run step (init freeLanes) pre = some t → t.Kept :=
  ⟨rfl, (subscriptions_kept_iff freeLanes oneAfterTheOther _ rfl).2.mpr (by decide)⟩

/-- The second client is connected and in no list, and nothing will bring it back. -/
theorem joins_the_leaving_lost :
    ¬ ∀ (lanes : Lanes) (as : List Action) (s : Mix), run step (init lanes) as = some s → s.Kept := by
  intro h
  have hkept := h freeLanes joinsTheLeaving _ rfl 1 1 rfl rfl
  rcases hkept with ⟨hr, -⟩ | ⟨ending, hne, hmem⟩
  · contradiction
  · have hlast : (1, some ending) ∈ [(0, none), (1, some Ending.lastListenerLeft)] := hmem
    exact hne (by simpa using hlast)

end Mix

end RemoteX11.Audio
