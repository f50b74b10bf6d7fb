/-
  Every application in the hub has a channel and a live capture.

  `ship_spec` says what one turn of the fan-out does to a lane and to its channel, `shipAll_spec` what the
  loop does, and `Inv` is what every step of the hub keeps: unless a capture ends by itself or a packet
  finds no lane that takes it, the applications of the hub are cared for (`applications_cared_for`).
-/
import RemoteX11.Audio.Hub
import RemoteX11.Lib.Run

namespace RemoteX11.Audio

open RemoteX11.Lib RemoteX11.Protocol RemoteX11.Queue

/-! ## What a lane has been offered -/

/-- The channel was opened on the lane. -/
def Lane.Opened (lane : Lane) (id : ConnectionId) : Prop :=
  ∃ m, (Frame.json (.channelOpen m), true) ∈ lane.offered ∧ m.connectionId = id

/-- The end of the channel was offered to the lane. -/
def Lane.CloseOffered (lane : Lane) (id : ConnectionId) : Prop :=
  ∃ accepted, (closeFrame id, accepted) ∈ lane.offered

/-- A lane that only changes by what is offered to it. -/
structure Lane.Grows (lane lane' : Lane) : Prop where
  isOpen : lane'.isOpen = lane.isOpen
  offered : lane.offered ⊆ lane'.offered

theorem Lane.Grows.refl (lane : Lane) : lane.Grows lane := ⟨rfl, List.Subset.refl _⟩

theorem Lane.Grows.trans {a b c : Lane} (h : a.Grows b) (h' : b.Grows c) : a.Grows c :=
  ⟨h'.isOpen.trans h.isOpen, List.Subset.trans h.offered h'.offered⟩

theorem Lane.Grows.closeOffered {lane lane' : Lane} (h : lane.Grows lane') {id : ConnectionId}
    (hc : lane.CloseOffered id) : lane'.CloseOffered id := by
  obtain ⟨accepted, hmem⟩ := hc
  exact ⟨accepted, h.offered hmem⟩

/-- The frame is taken by the lane. -/
def Lane.takes (lane : Lane) : Bool := lane.isOpen && lane.hasRoom

theorem sendPriority_offered (lane : Lane) (frame : Frame) :
    (lane.sendPriority frame).2.offered = lane.offered ++ [(frame, lane.takes)] ∧
      (lane.sendPriority frame).2.isOpen = lane.isOpen := by
  unfold Lane.sendPriority Lane.takes
  cases hopen : lane.isOpen with
  | false => simp
  | true => cases lane.hasRoom <;> simp

namespace Lanes

variable {lanes : Lanes} {l k : Nat} {frame : Frame} {id : ConnectionId}

theorem send_grows : (lanes k).Grows ((lanes.send l frame).2 k) := by
  unfold send
  by_cases hk : k = l
  · subst hk
    obtain ⟨hoffered, hopen⟩ := sendPriority_offered (lanes k) frame
    simp only [if_true]
    exact ⟨hopen, by rw [hoffered]; exact List.subset_append_left _ _⟩
  · simp only [if_neg hk]
    exact Lane.Grows.refl _

/-- What is opened by a frame: the channel it names, when the lane takes it. -/
theorem opened_of_send (h : ((lanes.send l frame).2 k).Opened id) :
    (lanes k).Opened id ∨ k = l ∧ (lanes l).takes = true ∧
      ∃ m, frame = .json (.channelOpen m) ∧ m.connectionId = id := by
  unfold send at h
  by_cases hk : k = l
  · subst hk
    obtain ⟨m, hmem, hm⟩ := h
    simp only [if_true] at hmem
    rw [(sendPriority_offered (lanes k) frame).1, List.mem_append, List.mem_singleton,
      Prod.mk.injEq] at hmem
    rcases hmem with hmem | ⟨hframe, htakes⟩
    · exact .inl ⟨m, hmem, hm⟩
    · exact .inr ⟨rfl, htakes.symm, m, hframe.symm, hm⟩
  · simp only [if_neg hk] at h
    exact .inl h

theorem closeOffered_send : ((lanes.send l (closeFrame id)).2 l).CloseOffered id := by
  refine ⟨(lanes l).takes, ?_⟩
  unfold send
  simp only [if_true]
  rw [(sendPriority_offered (lanes l) _).1]
  exact List.mem_append_right _ List.mem_cons_self

theorem send_ok (h : (lanes.send l frame).1 = .ok ()) : (lanes l).takes = true := by
  unfold send Lane.sendPriority at h
  unfold Lane.takes
  cases hopen : (lanes l).isOpen with
  | false => simp [hopen] at h
  | true =>
    cases hroom : (lanes l).hasRoom with
    | false => simp [hopen, hroom] at h
    | true => rfl

theorem send_takes (h : (lanes l).takes = true) : (lanes.send l frame).1 = .ok () := by
  unfold Lane.takes at h
  rw [Bool.and_eq_true] at h
  unfold send Lane.sendPriority
  simp [h.1, h.2]

theorem send_closed (h : (lanes.send l frame).1 = .error .closed) : (lanes l).isOpen = false := by
  unfold send Lane.sendPriority at h
  cases hopen : (lanes l).isOpen with
  | false => rfl
  | true => cases hroom : (lanes l).hasRoom <;> simp [hopen, hroom] at h

/-- A frame that is refused fills no lane. -/
theorem send_error {e : PrioritySendError} (h : (lanes.send l frame).1 = .error e) :
    ((lanes.send l frame).2 k).queue = (lanes k).queue := by
  have htakes : (lanes l).takes ≠ true := by
    intro htakes
    rw [send_takes htakes] at h
    cases h
  unfold send
  by_cases hk : k = l
  · subst hk
    unfold Lane.takes at htakes
    simp only [if_true]
    unfold Lane.sendPriority
    cases hopen : (lanes k).isOpen with
    | false => rfl
    | true =>
      cases hroom : (lanes k).hasRoom with
      | false => rfl
      | true => simp [hopen, hroom] at htakes
  · simp only [if_neg hk]

end Lanes

/-! ## One turn of the fan-out -/

/-- The channel can take a packet: its lane is open, and has room for its opening if that is due. -/
def Channel.Accepting (lanes : Lanes) (ch : Channel) : Prop :=
  (lanes ch.outbound).isOpen = true ∧ (ch.opened = true ∨ (lanes ch.outbound).hasRoom = true)

instance (lanes : Lanes) (ch : Channel) : Decidable (ch.Accepting lanes) :=
  inferInstanceAs (Decidable (_ ∧ (_ ∨ _)))

/-- What a turn makes of a channel and of the lanes. -/
structure Ships (lanes : Lanes) (ch : Channel) (lanes' : Lanes) (ch' : Channel) (dead : Bool) : Prop where
  id : ch'.audioChannelId = ch.audioChannelId
  outbound : ch'.outbound = ch.outbound
  grows : ∀ k, (lanes k).Grows (lanes' k)
  /-- nothing but the channel itself is opened, -/
  opened : ∀ k id, (lanes' k).Opened id →
    (lanes k).Opened id ∨ k = ch.outbound ∧ id = ch.audioChannelId ∧ ch'.opened = true
  marked : ch.opened = true → ch'.opened = true
  /-- a channel that is kept has been opened, -/
  kept : dead = false → ch'.opened = true
  /-- one that is dead has lost its lane or was never opened, -/
  gone : dead = true → (lanes ch.outbound).isOpen = false ∨ ch'.opened = false
  /-- and has filled no lane -/
  still : dead = true → ∀ k, (lanes' k).queue = (lanes k).queue
  accepting : ch.Accepting lanes → dead = false

theorem shipData_spec (seq : UInt32) (packet : Bytes) (lanes : Lanes) (ch : Channel)
    (hopened : ch.opened = true) :
    Ships lanes ch (shipData seq packet lanes ch).1 (shipData seq packet lanes ch).2.1
      (shipData seq packet lanes ch).2.2 := by
  unfold shipData
  generalize hframe : Frame.binary (.streamData ⟨ch.audioChannelId, seq, packet⟩) = frame
  rcases hsent : lanes.send ch.outbound frame with ⟨r, lanes'⟩
  have hfst : (lanes.send ch.outbound frame).1 = r := congrArg Prod.fst hsent
  have hsnd : (lanes.send ch.outbound frame).2 = lanes' := congrArg Prod.snd hsent
  have hgrows : ∀ k, (lanes k).Grows (lanes' k) := by
    intro k
    rw [← hsnd]
    exact Lanes.send_grows
  -- a packet opens nothing
  have hnot : ∀ k id, (lanes' k).Opened id → (lanes k).Opened id := by
    intro k id h
    rw [← hsnd] at h
    rcases Lanes.opened_of_send h with h | ⟨-, -, m, hm, -⟩
    · exact h
    · rw [← hframe] at hm
      cases hm
  match r, hfst with
  | .ok (), _ =>
    exact ⟨rfl, rfl, hgrows, fun k id h => .inl (hnot k id h), id, fun _ => hopened, nofun, nofun,
      fun _ => rfl⟩
  | .error .full, _ =>
    exact ⟨rfl, rfl, hgrows, fun k id h => .inl (hnot k id h), id, fun _ => hopened, nofun, nofun,
      fun _ => rfl⟩
  | .error .closed, hfst =>
    have hclosed := Lanes.send_closed hfst
    refine ⟨rfl, rfl, hgrows, fun k id h => .inl (hnot k id h), id, nofun, fun _ => .inl hclosed, ?_, ?_⟩
    · intro _ k
      rw [← hsnd]
      exact Lanes.send_error hfst
    · intro haccepting
      exact absurd haccepting.1 (by rw [hclosed]; decide)

/-- **One turn.** -/
theorem ship_spec (seq : UInt32) (packet : Bytes) (lanes : Lanes) (ch : Channel) :
    Ships lanes ch (ship seq packet lanes ch).1 (ship seq packet lanes ch).2.1
      (ship seq packet lanes ch).2.2 := by
  unfold ship
  cases hopened : ch.opened with
  | true => exact shipData_spec seq packet lanes ch hopened
  | false =>
    simp only [Bool.false_eq_true, if_false]
    rcases hsent : lanes.send ch.outbound ch.openFrame with ⟨r, lanes'⟩
    have hfst : (lanes.send ch.outbound ch.openFrame).1 = r := congrArg Prod.fst hsent
    have hsnd : (lanes.send ch.outbound ch.openFrame).2 = lanes' := congrArg Prod.snd hsent
    have hgrows : ∀ k, (lanes k).Grows (lanes' k) := by
      intro k
      rw [← hsnd]
      exact Lanes.send_grows
    have hopen : ∀ k id, (lanes' k).Opened id → (lanes k).Opened id ∨
        k = ch.outbound ∧ id = ch.audioChannelId ∧ (lanes ch.outbound).takes = true := by
      intro k id h
      rw [← hsnd] at h
      refine (Lanes.opened_of_send h).imp_right ?_
      rintro ⟨hk, htakes, m, hm, rfl⟩
      cases hm
      exact ⟨hk, rfl, htakes⟩
    match r, hfst with
    | .ok (), hfst =>
      -- the channel is open now, and the packet follows
      have hdata := shipData_spec seq packet lanes' { ch with opened := true } rfl
      have htakes := Lanes.send_ok hfst
      have hlane : (lanes' ch.outbound).isOpen = true := by
        rw [(hgrows _).isOpen]
        exact (Bool.and_eq_true _ _ ▸ htakes).1
      have hkept : (shipData seq packet lanes' { ch with opened := true }).2.2 = false :=
        hdata.accepting ⟨hlane, .inl rfl⟩
      have hmarked := hdata.marked rfl
      refine ⟨hdata.id, hdata.outbound, fun k => (hgrows k).trans (hdata.grows k), ?_, fun _ => hmarked,
        fun _ => hmarked, ?_, ?_, fun _ => hkept⟩
      · intro k id h
        rcases hdata.opened k id h with h | ⟨hk, hid, ho⟩
        · refine (hopen k id h).imp_right ?_
          rintro ⟨hk, hid, -⟩
          exact ⟨hk, hid, hmarked⟩
        · exact .inr ⟨hk, hid, ho⟩
      · intro hdead
        rw [hkept] at hdead
        cases hdead
      · intro hdead
        rw [hkept] at hdead
        cases hdead
    | .error e, hfst =>
      have hnot : (lanes ch.outbound).takes ≠ true := by
        intro htakes
        rw [Lanes.send_takes htakes] at hfst
        cases hfst
      refine ⟨rfl, rfl, hgrows, ?_, fun h => absurd (hopened.symm.trans h) (by decide), nofun,
        fun _ => .inr hopened, ?_, ?_⟩
      · intro k id h
        exact .inl ((hopen k id h).resolve_right fun hnew => hnot hnew.2.2)
      · intro _ k
        rw [← hsnd]
        exact Lanes.send_error hfst
      · rintro ⟨hlane, ho | hroom⟩
        · rw [hopened] at ho
          cases ho
        · exact absurd (by unfold Lane.takes; rw [hlane, hroom]; rfl) hnot

/-! ## The loop -/

/-- What the loop makes of the channels and of the lanes. -/
structure ShipsAll (lanes : Lanes) (channels : List Channel) (lanes' : Lanes)
    (shipped : List (Channel × Bool)) : Prop where
  ids : shipped.map (fun r => r.1.audioChannelId) = channels.map Channel.audioChannelId
  grows : ∀ k, (lanes k).Grows (lanes' k)
  opened : ∀ k id, (lanes' k).Opened id → (lanes k).Opened id ∨
    ∃ r ∈ shipped, r.1.outbound = k ∧ r.1.audioChannelId = id ∧ r.1.opened = true
  kept : ∀ r ∈ shipped, r.2 = false → r.1.opened = true
  gone : ∀ r ∈ shipped, r.2 = true → (lanes r.1.outbound).isOpen = false ∨ r.1.opened = false
  source : ∀ r ∈ shipped, ∃ ch ∈ channels, r.1.audioChannelId = ch.audioChannelId ∧
    r.1.outbound = ch.outbound
  reached : ∀ ch ∈ channels, ∃ r ∈ shipped, r.1.audioChannelId = ch.audioChannelId ∧
    r.1.outbound = ch.outbound ∧ (ch.opened = true → r.1.opened = true)
  accepting : (∃ ch ∈ channels, ch.Accepting lanes) → ∃ r ∈ shipped, r.2 = false

/-- A turn that leaves the lanes as full as they were leaves them as accepting. -/
theorem Channel.Accepting.of_still {lanes lanes' : Lanes} {ch : Channel}
    (hgrows : ∀ k, (lanes k).Grows (lanes' k)) (hstill : ∀ k, (lanes' k).queue = (lanes k).queue)
    (h : ch.Accepting lanes) : ch.Accepting lanes' := by
  unfold Channel.Accepting Lane.hasRoom at *
  rwa [(hgrows _).isOpen, hstill]

theorem shipAll_cons (seq : UInt32) (packet : Bytes) (ch : Channel) (rest : List Channel) (lanes : Lanes) :
    shipAll seq packet (ch :: rest) lanes =
      ((shipAll seq packet rest (ship seq packet lanes ch).1).1,
        (ship seq packet lanes ch).2 :: (shipAll seq packet rest (ship seq packet lanes ch).1).2) := rfl

/-- **The loop over the channels.** -/
theorem shipAll_spec (seq : UInt32) (packet : Bytes) (channels : List Channel) (lanes : Lanes) :
    ShipsAll lanes channels (shipAll seq packet channels lanes).1
      (shipAll seq packet channels lanes).2 := by
  induction channels generalizing lanes with
  | nil =>
    exact ⟨rfl, fun _ => Lane.Grows.refl _, fun _ _ h => .inl h, by simp [shipAll], by simp [shipAll],
      by simp [shipAll], by simp, by simp⟩
  | cons ch rest ih =>
    have hturn := ship_spec seq packet lanes ch
    have hrest := ih (ship seq packet lanes ch).1
    rw [shipAll_cons]
    generalize ship seq packet lanes ch = turn at hturn hrest ⊢
    obtain ⟨lanes₁, ch', dead⟩ := turn
    simp only at hturn hrest ⊢
    generalize shipAll seq packet rest lanes₁ = others at hrest ⊢
    obtain ⟨lanes', shipped⟩ := others
    simp only at hrest ⊢
    refine ⟨?_, fun k => (hturn.grows k).trans (hrest.grows k), ?_, ?_, ?_, ?_, ?_, ?_⟩
    · exact congrArg₂ List.cons hturn.id hrest.ids
    · intro k id h
      rcases hrest.opened k id h with h | ⟨r, hr, hnew⟩
      · rcases hturn.opened k id h with h | ⟨hk, hid, ho⟩
        · exact .inl h
        · exact .inr ⟨(ch', dead), List.mem_cons_self, hturn.outbound.trans hk.symm,
            hturn.id.trans hid.symm, ho⟩
      · exact .inr ⟨r, List.mem_cons_of_mem _ hr, hnew⟩
    · intro r hr
      rcases List.mem_cons.mp hr with rfl | hr
      · exact hturn.kept
      · exact hrest.kept r hr
    · intro r hr hdead
      rcases List.mem_cons.mp hr with rfl | hr
      · have hgone := hturn.gone hdead
        rwa [← hturn.outbound] at hgone
      · refine (hrest.gone r hr hdead).imp_left ?_
        intro hclosed
        rwa [(hturn.grows _).isOpen] at hclosed
    · intro r hr
      rcases List.mem_cons.mp hr with rfl | hr
      · exact ⟨ch, List.mem_cons_self, hturn.id, hturn.outbound⟩
      · obtain ⟨c, hc, hsame⟩ := hrest.source r hr
        exact ⟨c, List.mem_cons_of_mem _ hc, hsame⟩
    · intro c hc
      rcases List.mem_cons.mp hc with rfl | hc
      · exact ⟨(ch', dead), List.mem_cons_self, hturn.id, hturn.outbound, hturn.marked⟩
      · obtain ⟨r, hr, hsame⟩ := hrest.reached c hc
        exact ⟨r, List.mem_cons_of_mem _ hr, hsame⟩
    · rintro ⟨c, hc, haccepting⟩
      cases hdead : dead with
      | false => exact ⟨(ch', false), List.mem_cons_self, rfl⟩
      | true =>
        -- the channel of this turn was not accepting, and the lanes are as they were
        rcases List.mem_cons.mp hc with rfl | hc
        · have := hturn.accepting haccepting
          rw [hdead] at this
          cases this
        · obtain ⟨r, hr, hkept⟩ := hrest.accepting
            ⟨c, hc, haccepting.of_still hturn.grows (hturn.still hdead)⟩
          exact ⟨r, List.mem_cons_of_mem _ hr, hkept⟩

/-- With ids of their own, the channels that are kept are those that are not dead. -/
theorem mem_retained {shipped : List (Channel × Bool)}
    (hids : (shipped.map fun r => r.1.audioChannelId).Nodup) {ch : Channel} :
    ch ∈ retained shipped ↔ (ch, false) ∈ shipped := by
  unfold retained
  simp only [List.mem_filter, List.mem_map, Bool.not_eq_true', List.contains_eq_mem,
    decide_eq_false_iff_not]
  constructor
  · rintro ⟨⟨⟨c, dead⟩, hmem, rfl⟩, hnot⟩
    cases dead with
    | false => exact hmem
    | true => exact absurd ⟨(c, true), ⟨hmem, rfl⟩, rfl⟩ hnot
  · intro hmem
    refine ⟨⟨(ch, false), hmem, rfl⟩, ?_⟩
    rintro ⟨r, ⟨hr, hdead⟩, hid⟩
    have heq := List.inj_on_of_nodup_map hids hr hmem hid
    rw [heq] at hdead
    cases hdead

/-! ## The invariant -/

/-- The channel is one of the application's. -/
def Holds (apps : Table ApplicationId ApplicationCapture) (app : ApplicationId) (ch : Channel) : Prop :=
  ∃ capture, apps.get app = some capture ∧ ch ∈ capture.channels

theorem holds_iff {apps : Table ApplicationId ApplicationCapture} {app : ApplicationId}
    {capture : ApplicationCapture} (hget : apps.get app = some capture) {ch : Channel} :
    Holds apps app ch ↔ ch ∈ capture.channels := by
  unfold Holds
  simp [hget]

theorem holds_put {apps : Table ApplicationId ApplicationCapture} {app a : ApplicationId}
    {capture : ApplicationCapture} {ch : Channel} : Holds (apps.put app capture) a ch ↔
      a = app ∧ ch ∈ capture.channels ∨ a ≠ app ∧ Holds apps a ch := by
  unfold Holds
  rw [Table.get_put]
  by_cases ha : a = app
  · simp [ha]
  · simp [ha]

/-- The capture of the application still produces packets for the channel. -/
def Hub.Feeds (s : Hub) (app : ApplicationId) (ch : Channel) : Prop :=
  ∃ capture task, s.applications.get app = some capture ∧ ch ∈ capture.channels ∧
    capture.task = some task ∧ task.alive = true

/-- The applications of the hub are cared for, and so are the channels that were opened. -/
structure Hub.CaredFor (s : Hub) : Prop where
  /-- an application has a channel, unless its last one is being removed -/
  listened : ∀ app capture, s.applications.get app = some capture → s.detaching ≠ some app →
    capture.channels ≠ []
  /-- its one capture task waits for the stream or reads it -/
  live : ∀ app capture, s.applications.get app = some capture →
    ∃ task, capture.task = some task ∧ task.alive = true
  /-- a channel that was opened on a lane that is still open has its capture, or its end was offered -/
  closed : ∀ l id, (s.lanes l).isOpen = true → (s.lanes l).Opened id → (s.lanes l).CloseOffered id ∨
    ∃ app ch, s.Feeds app ch ∧ ch.audioChannelId = id ∧ ch.outbound = l

structure Hub.Inv (s : Hub) : Prop where
  listened : ∀ app capture, s.applications.get app = some capture → s.detaching ≠ some app →
    capture.channels ≠ []
  live : ∀ app capture, s.applications.get app = some capture →
    ∃ task, capture.task = some task ∧ task.alive = true
  told : ∀ l id, (s.lanes l).isOpen = true → (s.lanes l).Opened id → (s.lanes l).CloseOffered id ∨
    ∃ app ch, Holds s.applications app ch ∧ ch.audioChannelId = id ∧ ch.outbound = l
  counter : 1 ≤ s.counter
  issued : ∀ app ch, Holds s.applications app ch → ch.audioChannelId.raw.toNat < s.counter
  distinct : ∀ app capture, s.applications.get app = some capture →
    (capture.channels.map Channel.audioChannelId).Nodup
  owner : ∀ app app' ch ch', Holds s.applications app ch → Holds s.applications app' ch' →
    ch.audioChannelId = ch'.audioChannelId → app = app'
  logged : ∀ l id, (s.lanes l).Opened id → id.raw.toNat < s.counter
  /-- a channel knows that it was opened -/
  marked : ∀ app ch, Holds s.applications app ch → (s.lanes ch.outbound).Opened ch.audioChannelId →
    ch.opened = true

theorem nextConnectionId_gt (counter : Nat) : counter < (nextConnectionId counter).2 := by
  unfold nextConnectionId
  split
  · exact Nat.lt_succ_self counter
  · exact Nat.lt_add_of_pos_right (by decide)

/-- Below 2^32 the next id is the counter. -/
theorem nextConnectionId_eq {counter : Nat} (hpos : 1 ≤ counter) (hmax : counter < 2 ^ 32) :
    (nextConnectionId counter).1.raw.toNat = counter ∧ (nextConnectionId counter).2 = counter + 1 := by
  have hid : (UInt32.ofNat counter).toNat = counter := u32_toNat_ofNat hmax
  have hne : UInt32.ofNat counter ≠ 0 := by
    intro hzero
    rw [hzero] at hid
    have : (0 : UInt32).toNat = 0 := rfl
    omega
  unfold nextConnectionId
  rw [if_pos hne]
  exact ⟨hid, rfl⟩

namespace Hub

variable {s t : Hub}

theorem Inv.caredFor (h : s.Inv) : s.CaredFor := by
  refine ⟨h.listened, h.live, ?_⟩
  intro l id hl ho
  refine (h.told l id hl ho).imp_right ?_
  rintro ⟨app, ch, ⟨capture, hget, hch⟩, hsame⟩
  obtain ⟨task, htask, halive⟩ := h.live app capture hget
  exact ⟨app, ch, ⟨capture, task, hget, hch, htask, halive⟩, hsame⟩

theorem Inv.init {lanes : Lanes} (h : ∀ l, (lanes l).offered = []) : (Hub.init lanes).Inv := by
  have hopened : ∀ l id, ¬ (lanes l).Opened id := by
    rintro l id ⟨m, hmem, -⟩
    rw [h l] at hmem
    cases hmem
  have hnone : ∀ app ch, ¬ Holds Table.empty app ch := by
    rintro app ch ⟨capture, hget, -⟩
    cases hget
  exact ⟨nofun, nofun, fun l id _ ho => absurd ho (hopened l id), Nat.le_refl 1,
    fun app ch hch => absurd hch (hnone app ch), nofun,
    fun app _ ch _ hch => absurd hch (hnone app ch), fun l id ho => absurd ho (hopened l id),
    fun app ch hch => absurd hch (hnone app ch)⟩

/-- The surroundings move: nothing is opened, and no end of a channel is forgotten. -/
theorem Inv.surroundings (h : s.Inv) (happs : t.applications = s.applications)
    (hdetaching : t.detaching = s.detaching) (hcounter : s.counter ≤ t.counter)
    (hopen : ∀ l, (t.lanes l).isOpen = true → (s.lanes l).isOpen = true)
    (hopened : ∀ l id, (t.lanes l).Opened id → (s.lanes l).Opened id)
    (hclosed : ∀ l id, (s.lanes l).CloseOffered id → (t.lanes l).CloseOffered id) : t.Inv := by
  refine ⟨?_, ?_, ?_, Nat.le_trans h.counter hcounter, ?_, ?_, ?_, ?_, ?_⟩
  · rw [happs, hdetaching]
    exact h.listened
  · rw [happs]
    exact h.live
  · intro l id hl ho
    rw [happs]
    exact (h.told l id (hopen l hl) (hopened l id ho)).imp_left (hclosed l id)
  · intro app ch hch
    rw [happs] at hch
    exact Nat.lt_of_lt_of_le (h.issued app ch hch) hcounter
  · rw [happs]
    exact h.distinct
  · rw [happs]
    exact h.owner
  · intro l id ho
    exact Nat.lt_of_lt_of_le (h.logged l id (hopened l id ho)) hcounter
  · intro app ch hch ho
    rw [happs] at hch
    exact h.marked app ch hch (hopened _ _ ho)

theorem Inv.sameLanes (h : s.Inv) (happs : t.applications = s.applications)
    (hdetaching : t.detaching = s.detaching) (hcounter : s.counter ≤ t.counter)
    (hlanes : t.lanes = s.lanes) : t.Inv := by
  refine h.surroundings happs hdetaching hcounter ?_ ?_ ?_
  all_goals
    rw [hlanes]
  · exact fun _ hl => hl
  · exact fun _ _ ho => ho
  · exact fun _ _ hc => hc

/-- An application's capture is put back, with other channels or another task. What is asked: the ids of
    its channels were its own or are new; what is newly opened is one of its channels; and a channel that
    was opened and is gone has been told. -/
theorem Inv.put (h : s.Inv) {app : ApplicationId} {capture : ApplicationCapture}
    (happs : t.applications = s.applications.put app capture) (hcounter : s.counter ≤ t.counter)
    (hgrows : ∀ l, (s.lanes l).Grows (t.lanes l))
    (hdetaching : ∀ a, a ≠ app → t.detaching ≠ some a → s.detaching ≠ some a)
    (hlistened : t.detaching ≠ some app → capture.channels ≠ [])
    (hlive : ∃ task, capture.task = some task ∧ task.alive = true)
    (hdistinct : (capture.channels.map Channel.audioChannelId).Nodup)
    (hids : ∀ ch ∈ capture.channels, (∃ c, Holds s.applications app c ∧
      c.audioChannelId = ch.audioChannelId) ∨ s.counter ≤ ch.audioChannelId.raw.toNat ∧
      ch.audioChannelId.raw.toNat < t.counter)
    (hopened : ∀ l id, (t.lanes l).Opened id → (s.lanes l).Opened id ∨
      ∃ c, Holds s.applications app c ∧ c.audioChannelId = id)
    (hmarked : ∀ ch ∈ capture.channels, (t.lanes ch.outbound).Opened ch.audioChannelId → ch.opened = true)
    (hclosed : ∀ l id, (t.lanes l).isOpen = true → (t.lanes l).Opened id →
      ((s.lanes l).Opened id → ∃ c, Holds s.applications app c ∧ c.audioChannelId = id ∧ c.outbound = l) →
      (t.lanes l).CloseOffered id ∨ ∃ ch ∈ capture.channels, ch.audioChannelId = id ∧ ch.outbound = l) :
    t.Inv := by
  -- an id of the application is nobody else's
  have hforeign : ∀ a c id, a ≠ app → Holds s.applications a c →
      (∃ d, Holds s.applications app d ∧ d.audioChannelId = id) ∨ s.counter ≤ id.raw.toNat →
      c.audioChannelId ≠ id := by
    rintro a c id ha hc (⟨d, hd, rfl⟩ | hge) hid
    · exact ha (h.owner a app c d hc hd hid)
    · have := h.issued a c hc
      rw [hid] at this
      omega
  refine ⟨?_, ?_, ?_, Nat.le_trans h.counter hcounter, ?_, ?_, ?_, ?_, ?_⟩
  · intro a c hget hnot
    rw [happs, Table.get_put] at hget
    by_cases ha : a = app
    · rw [if_pos ha] at hget
      cases hget
      exact hlistened (ha ▸ hnot)
    · rw [if_neg ha] at hget
      exact h.listened a c hget (hdetaching a ha hnot)
  · intro a c hget
    rw [happs, Table.get_put] at hget
    by_cases ha : a = app
    · rw [if_pos ha] at hget
      cases hget
      exact hlive
    · rw [if_neg ha] at hget
      exact h.live a c hget
  · intro l id hl ho
    by_cases hmine : (s.lanes l).Opened id →
        ∃ c, Holds s.applications app c ∧ c.audioChannelId = id ∧ c.outbound = l
    · refine (hclosed l id hl ho hmine).imp_right ?_
      rintro ⟨ch, hch, hsame⟩
      exact ⟨app, ch, by rw [happs]; exact holds_put.mpr (.inl ⟨rfl, hch⟩), hsame⟩
    · rw [Classical.not_imp] at hmine
      obtain ⟨hbefore, hother⟩ := hmine
      have hl' : (s.lanes l).isOpen = true := by rwa [← (hgrows l).isOpen]
      rcases h.told l id hl' hbefore with hc | ⟨a, ch, hch, hsame⟩
      · exact .inl ((hgrows l).closeOffered hc)
      · have ha : a ≠ app := by
          rintro rfl
          exact hother ⟨ch, hch, hsame⟩
        exact .inr ⟨a, ch, by rw [happs]; exact holds_put.mpr (.inr ⟨ha, hch⟩), hsame⟩
  · intro a ch hch
    rw [happs] at hch
    rcases holds_put.mp hch with ⟨ha, hmem⟩ | ⟨-, hold⟩
    · rcases hids ch hmem with ⟨c, hc, hid⟩ | ⟨-, hlt⟩
      · rw [← hid]
        exact Nat.lt_of_lt_of_le (h.issued _ c hc) hcounter
      · exact hlt
    · exact Nat.lt_of_lt_of_le (h.issued a ch hold) hcounter
  · intro a c hget
    rw [happs, Table.get_put] at hget
    by_cases ha : a = app
    · rw [if_pos ha] at hget
      cases hget
      exact hdistinct
    · rw [if_neg ha] at hget
      exact h.distinct a c hget
  · intro a a' ch ch' hch hch' hid
    rw [happs] at hch hch'
    rcases holds_put.mp hch with ⟨ha, hmem⟩ | ⟨ha, hold⟩ <;>
      rcases holds_put.mp hch' with ⟨ha', hmem'⟩ | ⟨ha', hold'⟩
    · rw [ha, ha']
    · exact absurd hid.symm (hforeign a' ch' _ ha' hold' ((hids ch hmem).imp_right And.left))
    · exact absurd hid (hforeign a ch _ ha hold ((hids ch' hmem').imp_right And.left))
    · exact h.owner a a' ch ch' hold hold' hid
  · intro l id ho
    rcases hopened l id ho with ho | ⟨c, hc, rfl⟩
    · exact Nat.lt_of_lt_of_le (h.logged l id ho) hcounter
    · exact Nat.lt_of_lt_of_le (h.issued app c hc) hcounter
  · intro a ch hch ho
    rw [happs] at hch
    rcases holds_put.mp hch with ⟨-, hmem⟩ | ⟨ha, hold⟩
    · exact hmarked ch hmem ho
    · refine h.marked a ch hold ((hopened _ _ ho).resolve_right ?_)
      intro hmine
      exact hforeign a ch _ ha hold (.inl hmine) rfl

end Hub

/-! ## The operations -/

/-- Of a list, `eraseP` takes what `find?` finds. -/
theorem mem_eraseP_or_eq {α : Type} {p : α → Bool} {l : List α} {a c : α} (h : l.find? p = some a)
    (hc : c ∈ l) : c ∈ l.eraseP p ∨ c = a := by
  induction l with
  | nil => cases hc
  | cons b l ih =>
    cases hp : p b with
    | true =>
      rw [List.find?_cons_of_pos hp, Option.some.injEq] at h
      rw [List.eraseP_cons_of_pos hp]
      rcases List.mem_cons.mp hc with rfl | hc
      · exact .inr h
      · exact .inl hc
    | false =>
      rw [List.find?_cons_of_neg (by simp [hp])] at h
      rw [List.eraseP_cons_of_neg (by simp [hp])]
      rcases List.mem_cons.mp hc with rfl | hc
      · exact .inl List.mem_cons_self
      · exact (ih h hc).imp_left (List.mem_cons_of_mem _)

/-- What `remove_channel` does: a channel that is gone and was opened has been told. -/
structure Removes (lanes : Lanes) (channels : List Channel) (lanes' : Lanes)
    (channels' : List Channel) : Prop where
  sublist : channels'.Sublist channels
  grows : ∀ k, (lanes k).Grows (lanes' k)
  opened : ∀ k id, (lanes' k).Opened id → (lanes k).Opened id
  told : ∀ ch ∈ channels, ch ∈ channels' ∨
    (ch.opened = true → (lanes' ch.outbound).CloseOffered ch.audioChannelId)

theorem removeChannel_spec (conn : ConnectionId) (channels : List Channel) (lanes : Lanes) :
    Removes lanes channels (removeChannel conn channels lanes).1 (removeChannel conn channels lanes).2 := by
  unfold removeChannel
  split
  · exact ⟨List.Sublist.refl _, fun _ => Lane.Grows.refl _, fun _ _ ho => ho, fun _ hch => .inl hch⟩
  · rename_i ch hfound
    refine ⟨List.eraseP_sublist, ?_, ?_, ?_⟩
    · intro k
      simp only
      split
      · exact Lanes.send_grows
      · exact Lane.Grows.refl _
    · intro k id ho
      simp only at ho
      split at ho
      · rcases Lanes.opened_of_send ho with ho | ⟨-, -, m, hm, -⟩
        · exact ho
        · cases hm
      · exact ho
    · intro c hc
      refine (mem_eraseP_or_eq hfound hc).imp_right ?_
      rintro rfl hopened
      simp only
      rw [if_pos hopened]
      exact Lanes.closeOffered_send

namespace Hub

variable {s t : Hub}

/-- What `attach_connection` makes of the channels of the application. -/
theorem attachConnection_eq (h : s.Inv) (app : ApplicationId) (conn : ConnectionId) (lane : Nat) :
    ∃ old capture, s.attachConnection app conn lane =
        { s with applications := s.applications.put app capture, counter := (nextConnectionId s.counter).2 } ∧
      capture.channels = old ++ [⟨(nextConnectionId s.counter).1, conn, lane, false, 0⟩] ∧
      (∀ ch, ch ∈ old ↔ Holds s.applications app ch) ∧ (old.map Channel.audioChannelId).Nodup ∧
      ∃ task, capture.task = some task ∧ task.alive = true := by
  cases hget : s.applications.get app with
  | none =>
    refine ⟨[], ApplicationCapture.start ⟨[_], none⟩, by simp only [attachConnection, hget], rfl, ?_,
      List.nodup_nil, _, rfl, rfl⟩
    intro ch
    refine iff_of_false (by simp) ?_
    rintro ⟨capture, hsome, -⟩
    rw [hget] at hsome
    cases hsome
  | some capture =>
    refine ⟨capture.channels, { capture with channels := capture.channels ++ [_] },
      by simp only [attachConnection, hget], rfl, ?_, h.distinct app capture hget, h.live app capture hget⟩
    exact fun ch => (holds_iff hget).symm

theorem Inv.attachConnection (h : s.Inv) (hmax : s.counter < 2 ^ 32) (app : ApplicationId)
    (conn : ConnectionId) (lane : Nat) : (s.attachConnection app conn lane).Inv := by
  obtain ⟨hid, hnext⟩ := nextConnectionId_eq h.counter hmax
  obtain ⟨old, capture, heq, hchannels, hold, hdistinct, hlive⟩ := attachConnection_eq h app conn lane
  rw [heq]
  refine h.put rfl (by simp only [hnext]; omega) (fun _ => Lane.Grows.refl _) (fun _ _ hnot => hnot)
    (fun _ => by simp [hchannels]) hlive ?_ ?_ (fun _ _ ho => .inl ho) ?_ ?_
  · rw [hchannels, List.map_append, List.nodup_append]
    refine ⟨hdistinct, List.nodup_singleton _, ?_⟩
    intro id hmem id' hmem' hsame
    obtain ⟨ch, hch, rfl⟩ := List.mem_map.mp hmem
    rw [List.map_singleton, List.mem_singleton] at hmem'
    have hlt := h.issued app ch ((hold ch).mp hch)
    rw [hsame, hmem', hid] at hlt
    omega
  · intro ch hch
    rw [hchannels] at hch
    rcases List.mem_append.mp hch with hch | hch
    · exact .inl ⟨ch, (hold ch).mp hch, rfl⟩
    · rw [List.mem_singleton.mp hch]
      refine .inr ⟨?_, ?_⟩ <;> simp only [hid, hnext] <;> omega
  · intro ch hch ho
    rw [hchannels] at hch
    rcases List.mem_append.mp hch with hch | hch
    · exact h.marked app ch ((hold ch).mp hch) ho
    · have hlt := h.logged _ _ ho
      rw [List.mem_singleton.mp hch, hid] at hlt
      omega
  · intro l id _ ho hmine
    obtain ⟨c, hc, hsame⟩ := hmine ho
    refine .inr ⟨c, ?_, hsame⟩
    rw [hchannels]
    exact List.mem_append_left _ ((hold c).mpr hc)

theorem Inv.detach (h : s.Inv) {app : ApplicationId} {capture : ApplicationCapture}
    (hget : s.applications.get app = some capture) (hnone : s.detaching = none) (conn : ConnectionId) :
    ({ s with
      applications := s.applications.put app
        { capture with channels := (removeChannel conn capture.channels s.lanes).2 }
      lanes := (removeChannel conn capture.channels s.lanes).1
      detaching := some app } : Hub).Inv := by
  have hspec := removeChannel_spec conn capture.channels s.lanes
  generalize removeChannel conn capture.channels s.lanes = removed at hspec
  obtain ⟨lanes', channels'⟩ := removed
  simp only at hspec ⊢
  refine h.put rfl (Nat.le_refl _) hspec.grows (fun _ _ _ => by rw [hnone]; nofun) (fun hnot => absurd rfl hnot)
    (h.live app capture hget) ?_ ?_ (fun l id ho => .inl (hspec.opened l id ho)) ?_ ?_
  · exact (h.distinct app capture hget).sublist (hspec.sublist.map _)
  · intro ch hch
    exact .inl ⟨ch, ⟨capture, hget, hspec.sublist.subset hch⟩, rfl⟩
  · intro ch hch ho
    exact h.marked app ch ⟨capture, hget, hspec.sublist.subset hch⟩ (hspec.opened _ _ ho)
  · intro l id _ ho hmine
    have hbefore := hspec.opened l id ho
    obtain ⟨c, hc, rfl, rfl⟩ := hmine hbefore
    rcases hspec.told c ((holds_iff hget).mp hc) with hkept | htold
    · exact .inr ⟨c, hkept, rfl, rfl⟩
    · exact .inl (htold (h.marked app c hc hbefore))

theorem Inv.finishDetach (h : s.Inv) {app : ApplicationId} (happ : s.detaching = some app) :
    ({ s with
      applications :=
        if (s.applications.get app).any fun capture => capture.channels.isEmpty then
          s.applications.remove app
        else s.applications
      detaching := none } : Hub).Inv := by
  cases hempty : (s.applications.get app).any fun capture => capture.channels.isEmpty with
  | false =>
    simp only [Bool.false_eq_true, if_false]
    refine ⟨?_, h.live, h.told, h.counter, h.issued, h.distinct, h.owner, h.logged, h.marked⟩
    intro a capture hget _
    by_cases ha : a = app
    · intro hnil
      rw [← ha, hget, Option.any_some, hnil] at hempty
      cases hempty
    · exact h.listened a capture hget (by rw [happ]; exact fun heq => ha (Option.some.inj heq).symm)
  | true =>
    simp only [if_true]
    -- nobody holds a channel of the application
    have hnot : ∀ a ch, Holds s.applications a ch → a ≠ app := by
      rintro a ch ⟨capture, hget, hch⟩ rfl
      rw [hget, Option.any_some, List.isEmpty_iff] at hempty
      rw [hempty] at hch
      cases hch
    have hback : ∀ a ch, Holds (s.applications.remove app) a ch → Holds s.applications a ch := by
      rintro a ch ⟨capture, hget, hch⟩
      exact ⟨capture, Table.get_of_get_remove hget, hch⟩
    have hholds : ∀ a ch, Holds s.applications a ch → Holds (s.applications.remove app) a ch := by
      intro a ch hch
      have ha := hnot a ch hch
      obtain ⟨capture, hget, hmem⟩ := hch
      exact ⟨capture, (Table.get_remove_of_ne _ ha).trans hget, hmem⟩
    refine ⟨?_, ?_, ?_, h.counter, fun a ch hch => h.issued a ch (hback a ch hch), ?_,
      fun a a' ch ch' hch hch' => h.owner a a' ch ch' (hback a ch hch) (hback a' ch' hch'), h.logged,
      fun a ch hch => h.marked a ch (hback a ch hch)⟩
    · intro a capture hget _
      rw [Table.get_remove] at hget
      split at hget
      · cases hget
      · rename_i ha
        exact h.listened a capture hget (by rw [happ]; exact fun heq => ha (Option.some.inj heq).symm)
    · exact fun a capture hget => h.live a capture (Table.get_of_get_remove hget)
    · intro l id hl ho
      refine (h.told l id hl ho).imp_right ?_
      rintro ⟨a, ch, hch, hsame⟩
      exact ⟨a, ch, hholds a ch hch, hsame⟩
    · exact fun a capture hget => h.distinct a capture (Table.get_of_get_remove hget)

/-- The capture task moves on. -/
theorem Inv.move (h : s.Inv) {app : ApplicationId} {next : CaptureTask → Option CaptureTask}
    (hnext : ∀ task task', next task = some task' → task'.alive = true)
    (hmove : s.move app next = some t) : t.Inv := by
  unfold Hub.move at hmove
  obtain ⟨capture, hget, hmove⟩ := Option.bind_eq_some_iff.mp hmove
  obtain ⟨task, htask, hmove⟩ := Option.bind_eq_some_iff.mp hmove
  obtain ⟨task', htask', hmove⟩ := Option.bind_eq_some_iff.mp hmove
  cases hmove
  refine h.put rfl (Nat.le_refl _) (fun _ => Lane.Grows.refl _) (fun _ _ hnot => hnot)
    (h.listened app capture hget) ⟨task', rfl, hnext task task' htask'⟩ (h.distinct app capture hget) ?_
    (fun _ _ ho => .inl ho) ?_ ?_
  · exact fun ch hch => .inl ⟨ch, ⟨capture, hget, hch⟩, rfl⟩
  · exact fun ch hch ho => h.marked app ch ⟨capture, hget, hch⟩ ho
  · intro l id _ ho hmine
    obtain ⟨c, hc, hsame⟩ := hmine ho
    exact .inr ⟨c, (holds_iff hget).mp hc, hsame⟩

/-- A packet, when a channel of the application can take it. -/
theorem Inv.ship (h : s.Inv) {app : ApplicationId} {seq : UInt32} {data : Bytes}
    (haccepting : ∀ capture ∈ s.applications.get app, s.detaching = some app ∨
      ∃ ch ∈ capture.channels, ch.Accepting s.lanes)
    (hship : s.ship app seq data = some t) : t.Inv := by
  unfold Hub.ship at hship
  obtain ⟨capture, hget, hship⟩ := Option.bind_eq_some_iff.mp hship
  split at hship
  · rename_i sent htask
    cases hship
    have hspec := shipAll_spec seq data capture.channels s.lanes
    generalize shipAll seq data capture.channels s.lanes = all at hspec
    obtain ⟨lanes', shipped⟩ := all
    simp only at hspec ⊢
    have hids : (shipped.map fun r => r.1.audioChannelId).Nodup := by
      rw [hspec.ids]
      exact h.distinct app capture hget
    have hholds : ∀ r ∈ shipped, ∃ c, Holds s.applications app c ∧
        c.audioChannelId = r.1.audioChannelId := by
      intro r hr
      obtain ⟨c, hc, hid, -⟩ := hspec.source r hr
      exact ⟨c, ⟨capture, hget, hc⟩, hid.symm⟩
    refine h.put rfl (Nat.le_refl _) hspec.grows (fun _ _ hnot => hnot) ?_ ⟨_, rfl, rfl⟩ ?_ ?_ ?_ ?_ ?_
    · intro hnot
      obtain ⟨⟨ch, dead⟩, hr, hdead⟩ := hspec.accepting ((haccepting capture hget).resolve_left hnot)
      obtain rfl : dead = false := hdead
      exact List.ne_nil_of_mem ((mem_retained hids).mpr hr)
    · refine List.Nodup.sublist (List.filter_sublist.map _) ?_
      rwa [List.map_map]
    · intro ch hch
      exact .inl (hholds _ ((mem_retained hids).mp hch))
    · intro l id ho
      refine (hspec.opened l id ho).imp_right ?_
      rintro ⟨r, hr, -, hid, -⟩
      obtain ⟨c, hc, hsame⟩ := hholds r hr
      exact ⟨c, hc, hsame.trans hid⟩
    · intro ch hch _
      exact hspec.kept _ ((mem_retained hids).mp hch) rfl
    · intro l id hl ho hmine
      -- the turn of the channel
      obtain ⟨r, hr, hl', hid, hro⟩ : ∃ r ∈ shipped, r.1.outbound = l ∧ r.1.audioChannelId = id ∧
          r.1.opened = true := by
        rcases hspec.opened l id ho with hbefore | hnew
        · obtain ⟨c, hc, hcid, hcl⟩ := hmine hbefore
          obtain ⟨r, hr, hrid, hrl, hro⟩ := hspec.reached c ((holds_iff hget).mp hc)
          refine ⟨r, hr, hrl.trans hcl, hrid.trans hcid, hro (h.marked app c hc ?_)⟩
          rw [hcl, hcid]
          exact hbefore
        · exact hnew
      obtain ⟨ch, dead⟩ := r
      cases dead with
      | false => exact .inr ⟨ch, (mem_retained hids).mpr hr, hid, hl'⟩
      | true =>
        -- it would have lost its lane
        rcases hspec.gone _ hr rfl with hgone | hgone
        · have hopen := (hspec.grows l).isOpen
          simp only at hgone hl'
          rw [hl, ← hl', hgone] at hopen
          cases hopen
        · rw [hro] at hgone
          cases hgone
  · cases hship

/-! ## Runs -/

/-- What a run is asked: no capture ends by itself, a packet finds a channel that can take it, and the
    ids do not wrap around. -/
def Guard (s : Hub) : Action → Prop
  | .attach _ _ _ => s.counter < 2 ^ 32
  | .packet app _ _ => ∀ capture ∈ s.applications.get app, s.detaching = some app ∨
      ∃ ch ∈ capture.channels, ch.Accepting s.lanes
  | .fail _ _ => False
  | _ => True

instance (s : Hub) : (a : Action) → Decidable (s.Guard a)
  | .attach _ _ _ => inferInstanceAs (Decidable (s.counter < 2 ^ 32))
  | .packet app _ _ => inferInstanceAs (Decidable (∀ capture ∈ s.applications.get app,
      s.detaching = some app ∨ ∃ ch ∈ capture.channels, ch.Accepting s.lanes))
  | .fail _ _ => isFalse id
  | .subscribe _ _ | .allocate | .detach _ _ | .finishDetach | .resolve _ | .found _ | .flow _ _ | .take _
  | .close _ => isTrue trivial

/-- What the surroundings do to a lane. -/
theorem Inv.lane (h : s.Inv) {lane : Nat} {new : Lane} (hopen : new.isOpen = true → (s.lanes lane).isOpen = true)
    (hoffered : new.offered = (s.lanes lane).offered) :
    ({ s with lanes := fun k => if k = lane then new else s.lanes k } : Hub).Inv := by
  refine h.surroundings rfl rfl (Nat.le_refl _) ?_ ?_ ?_
  all_goals
    intro l
    simp only
    split
  · rename_i hl
    rw [hl]
    exact hopen
  · exact id
  · rename_i hl
    intro id
    unfold Lane.Opened
    rw [hoffered, hl]
    exact fun ho => ho
  · exact fun _ ho => ho
  · rename_i hl
    intro id
    unfold Lane.CloseOffered
    rw [hoffered, hl]
    exact fun hc => hc
  · exact fun _ hc => hc

/-- **One step.** -/
theorem step_inv (h : s.Inv) {a : Action} (hg : s.Guard a) (hstep : s.step a = some t) : t.Inv := by
  cases a with
  | subscribe client lane =>
    simp only [step] at hstep
    split at hstep
    · cases hstep
    · cases hstep
      exact h.sameLanes rfl rfl (Nat.le_refl _) rfl
  | allocate =>
    cases hstep
    exact h.sameLanes rfl rfl (Nat.le_of_lt (nextConnectionId_gt _)) rfl
  | attach app conn client =>
    simp only [step] at hstep
    split at hstep
    · cases hstep
    · split at hstep
      · cases hstep
        exact h
      · cases hstep
        exact h.attachConnection hg app conn _
  | detach app conn =>
    simp only [step] at hstep
    split at hstep
    · cases hstep
    · rename_i hlocked
      split at hstep
      · cases hstep
        exact h
      · rename_i capture hget
        cases hstep
        exact h.detach hget (by simpa using hlocked) conn
  | finishDetach =>
    simp only [step] at hstep
    split at hstep
    · cases hstep
    · rename_i app happ
      cases hstep
      exact h.finishDetach happ
  | resolve app =>
    refine h.move ?_ hstep
    intro task task' hnext
    split at hnext <;> cases hnext
    rfl
  | found app =>
    refine h.move ?_ hstep
    intro task task' hnext
    split at hnext <;> cases hnext
    rfl
  | packet app seq data => exact h.ship hg hstep
  | fail app reason => exact hg.elim
  | flow lane m =>
    cases hstep
    refine h.surroundings rfl rfl (Nat.le_refl _) ?_ ?_ ?_
    · intro l hl
      rwa [Lanes.send_grows.isOpen] at hl
    · intro l id ho
      rcases Lanes.opened_of_send ho with ho | ⟨-, -, m, hm, -⟩
      · exact ho
      · cases hm
    · exact fun l id hc => Lanes.send_grows.closeOffered hc
  | take lane =>
    cases hstep
    exact h.lane (fun hopen => hopen) rfl
  | close lane =>
    cases hstep
    exact h.lane (fun hopen => by cases hopen) rfl

/-- **Applications and their captures.** Whatever clients, applications, captures and writers do, as long
    as no capture ends by itself, every packet finds a channel of its application that can take it and the
    ids have not wrapped around: every application in the hub has a channel and one capture task that
    still produces packets, so what attaches to it is heard, and no opened channel of an open lane is
    left without its capture unless its end was offered. -/
theorem applications_cared_for (lanes : Lanes) (hlanes : ∀ l, (lanes l).offered = []) (as : List Action)
    (s : Hub) (hguard : Meets step Guard (init lanes) as) (hrun : run step (init lanes) as = some s) :
    s.CaredFor := by
  have hinv : s.Inv := run_inv (fun _ _ _ hI hg hstep => step_inv hI hg hstep) (Inv.init hlanes) hguard hrun
  exact hinv.caredFor

/-- Lanes without a frame. -/
def emptyLanes : Lanes := fun _ => ⟨[], true, []⟩

/-- A client, an application with two connections, and its first packet. -/
def firstPacket : List Action :=
  [.subscribe ⟨77⟩ 0, .attach ⟨5⟩ ⟨11⟩ ⟨77⟩, .allocate, .attach ⟨5⟩ ⟨12⟩ ⟨77⟩, .resolve ⟨5⟩, .found ⟨5⟩,
    .packet ⟨5⟩ 0 [1, 2, 3]]

/-- One of the connections goes away, and its channel is closed. -/
theorem applications_cared_for_two : ∃ s,
    run step (init emptyLanes) (firstPacket ++ [.detach ⟨5⟩ ⟨11⟩, .finishDetach]) = some s ∧
    (s.lanes 0).CloseOffered ⟨1⟩ ∧ s.CaredFor := by
  have hrun : ∃ s ∈ run step (init emptyLanes) (firstPacket ++ [.detach ⟨5⟩ ⟨11⟩, .finishDetach]),
      (closeFrame ⟨1⟩, true) ∈ (s.lanes 0).offered := by decide
  have hguard : Meets step Guard (init emptyLanes)
      (firstPacket ++ [.detach ⟨5⟩ ⟨11⟩, .finishDetach]) := by decide
  obtain ⟨s, hrun, hclose⟩ := hrun
  exact ⟨s, hrun, ⟨true, hclose⟩, applications_cared_for emptyLanes (fun _ => rfl) _ s hguard hrun⟩

/-- A capture that ended by itself stays in the hub, with an opened channel whose end nobody has offered;
    and an application stays there after a packet has swept its last channel. -/
theorem captures_lost :
    (¬ ∀ (lanes : Lanes) as s, (∀ l, (lanes l).offered = []) → run step (init lanes) as = some s →
      ∀ l id, (s.lanes l).isOpen = true → (s.lanes l).Opened id → (s.lanes l).CloseOffered id ∨
        ∃ app ch, s.Feeds app ch ∧ ch.audioChannelId = id ∧ ch.outbound = l) ∧
    ¬ ∀ (lanes : Lanes) as s, (∀ l, (lanes l).offered = []) → run step (init lanes) as = some s →
      ∀ app capture, s.applications.get app = some capture → s.detaching ≠ some app →
        capture.channels ≠ [] := by
  constructor
  · intro h
    have hrun : ∃ s ∈ run step (init emptyLanes) (firstPacket ++ [.fail ⟨5⟩ "the capture child ended"]),
        (s.lanes 0).isOpen = true ∧
        (Frame.json (.channelOpen ⟨⟨1⟩, .audio, none, some ⟨11⟩⟩), true) ∈ (s.lanes 0).offered ∧
        (∀ accepted, (closeFrame ⟨1⟩, accepted) ∉ (s.lanes 0).offered) ∧
        ∀ e ∈ s.applications.entries, e.2.task = some (.ended (.error "the capture child ended")) := by
      decide
    obtain ⟨s, hrun, hl, ho, hclose, hended⟩ := hrun
    rcases h emptyLanes _ s (fun _ => rfl) hrun 0 ⟨1⟩ hl ⟨_, ho, rfl⟩ with ⟨accepted, hc⟩ |
      ⟨app, ch, ⟨capture, task, hget, -, htask, halive⟩, -⟩
    · exact hclose accepted hc
    · have hdead := hended _ (Table.mem_entries.mpr hget)
      cases hdead.symm.trans htask
      cases halive
  · intro h
    have hrun : ∃ s ∈ run step (init emptyLanes) (firstPacket ++ [.close 0, .packet ⟨5⟩ 1 [4]]),
        s.detaching = none ∧ ∃ capture ∈ s.applications.get ⟨5⟩, capture.channels = [] := by decide
    obtain ⟨s, hrun, hunlocked, capture, hget, hnil⟩ := hrun
    exact h emptyLanes _ s (fun _ => rfl) hrun ⟨5⟩ capture hget (by rw [hunlocked]; nofun) hnil

end Hub

end RemoteX11.Audio
