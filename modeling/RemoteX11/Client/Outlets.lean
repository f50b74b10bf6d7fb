/-
  The client's audio outlets and which of them are heard (`audioout/table.rs`, `audioout/mod.rs`,
  `serve/audio.rs`).

  `is_audible` is the rule, and each outlet has a flag that its player obeys. The flags are brought in line
  by `refresh_audibility`, after an open and a change of the foreground, but not after a removal. When the
  channel on which an application is heard goes and leaves the application another one, that one is the
  first of its application by the rule and stays muted (`players_match_iff`).

  The player child and its decoder are left out: an outlet's player takes packets, and may be gone.
-/
import RemoteX11.Lib.Run
import RemoteX11.Lib.Table
import RemoteX11.Protocol.Messages

namespace RemoteX11.Client

open RemoteX11.Lib RemoteX11.Protocol

/-! ## An outlet -/

/-- `OUTLET_BUFFER`. -/
def outletBuffer : Nat := 64

structure AudioOutlet where
  connId : ConnectionId
  buffer : List Bytes
  /-- the player's end of the buffer is gone -/
  closed : Bool
  audible : Bool
  deriving DecidableEq, Repr

namespace AudioOutlet

/-- `start_audio_outlet`, when there is a player. -/
def start (connId : ConnectionId) : AudioOutlet := ⟨connId, [], false, true⟩

/-- `deliver`: whether the player is still there, and the outlet afterwards. -/
def deliver (outlet : AudioOutlet) (packet : Bytes) : Bool × AudioOutlet :=
  if outlet.closed then (false, outlet)
  else if outletBuffer ≤ outlet.buffer.length then (true, outlet)
  else (true, { outlet with buffer := outlet.buffer ++ [packet] })

def setAudible (outlet : AudioOutlet) (audible : Bool) : AudioOutlet := { outlet with audible := audible }

theorem deliver_audible (outlet : AudioOutlet) (packet : Bytes) :
    (outlet.deliver packet).2.audible = outlet.audible := by
  unfold deliver
  split
  · rfl
  · split <;> rfl

end AudioOutlet

/-! ## The table -/

/-- The open channels; only an open channel has a tag. -/
structure OutletTable where
  outlets : Table UInt32 AudioOutlet
  appOf : Table UInt32 ConnectionId
  foreground : Option ConnectionId
  perApplication : Bool
  tagged : ∀ id app, appOf.get id = some app → (outlets.get id).isSome = true

namespace OutletTable

def new (perApplication : Bool) : OutletTable where
  outlets := .empty
  appOf := .empty
  foreground := none
  perApplication := perApplication
  tagged := fun _ _ h => nomatch h

/-- `owns`. -/
def owns (t : OutletTable) (channelId : ConnectionId) : Bool := (t.outlets.get channelId.raw).isSome

/-- `is_first_channel_of_app`: the lowest id that carries the tag. -/
def isFirstChannelOfApp (t : OutletTable) (app : ConnectionId) (channelId : ConnectionId) : Bool :=
  ((t.appOf.entries.filter fun e => e.2 = app).map Prod.fst).min? == some channelId.raw

def isAudible (t : OutletTable) (channelId : ConnectionId) : Bool :=
  if !t.perApplication then true
  else if !t.owns channelId then false
  else
    match t.appOf.get channelId.raw with
    | none => t.foreground.isNone
    | some app =>
      match t.foreground with
      | some foreground => decide (app = foreground) && t.isFirstChannelOfApp app channelId
      | none => t.isFirstChannelOfApp app channelId

/-- `refresh_audibility`. -/
def refreshAudibility (t : OutletTable) : OutletTable where
  outlets := t.outlets.mapValues fun id outlet => outlet.setAudible (t.isAudible ⟨id⟩)
  appOf := t.appOf
  foreground := t.foreground
  perApplication := t.perApplication
  tagged := by
    intro id app h
    rw [Table.get_mapValues, Option.isSome_map]
    exact t.tagged id app h

/-- `insert`: a channel that is already known is refused. -/
def insert (t : OutletTable) (outlet : AudioOutlet) (app : Option ConnectionId) : OutletTable :=
  if t.owns outlet.connId then t
  else
    { t with
      outlets := t.outlets.put outlet.connId.raw outlet
      appOf :=
        match app with
        | some app => t.appOf.put outlet.connId.raw app
        | none => t.appOf
      tagged := by
        intro id app' h
        rw [Table.get_put]
        split
        · rfl
        · rename_i hne
          apply t.tagged id app'
          cases app with
          | none => exact h
          | some app => rwa [Table.get_put_of_ne _ _ hne] at h }

def remove (t : OutletTable) (channelId : ConnectionId) : OutletTable where
  outlets := t.outlets.remove channelId.raw
  appOf := t.appOf.remove channelId.raw
  foreground := t.foreground
  perApplication := t.perApplication
  tagged := by
    intro id app h
    rw [Table.get_remove] at h ⊢
    split at h
    · contradiction
    · rename_i hne
      rw [if_neg hne]
      exact t.tagged id app h

/-- `set_foreground`. -/
def setForeground (t : OutletTable) (connection : Option ConnectionId) : OutletTable :=
  refreshAudibility { t with foreground := connection }

/-- An outlet that is in the table is replaced. -/
def update (t : OutletTable) (id : UInt32) (outlet : AudioOutlet) : OutletTable :=
  { t with
    outlets := t.outlets.put id outlet
    tagged := by
      intro id' app h
      rw [Table.get_put]
      split
      · rfl
      · exact t.tagged id' app h }

/-- `deliver`. -/
def deliver (t : OutletTable) (channelId : ConnectionId) (packet : Bytes) : Bool × OutletTable :=
  match t.outlets.get channelId.raw with
  | none => (false, t)
  | some outlet => ((outlet.deliver packet).1, t.update channelId.raw (outlet.deliver packet).2)

/-! ## The dispatch of the client -/

inductive Action where
  /-- `ChannelOpen` of kind audio: with the capability or without, and with a player or without -/
  | channelOpen (id : ConnectionId) (app : Option ConnectionId) (negotiated player : Bool)
  | channelClose (id : ConnectionId)
  | streamData (id : ConnectionId) (packet : Bytes)
  /-- what the monitor says has the focus -/
  | focus (foreground : Option ConnectionId)
  /-- the player takes the next packet -/
  | take (id : ConnectionId)
  /-- the player is gone -/
  | die (id : ConnectionId)
  deriving DecidableEq, Repr

/-- `open_audio_channel`. -/
def openAudioChannel (t : OutletTable) (id : ConnectionId) (app : Option ConnectionId)
    (negotiated player : Bool) : OutletTable :=
  if negotiated && player then (t.insert (.start id) app).refreshAudibility else t

/-- `deliver_audio_packet`. -/
def deliverAudioPacket (t : OutletTable) (id : ConnectionId) (packet : Bytes) : OutletTable :=
  let (alive, t') := t.deliver id packet
  if alive then t' else t'.remove id

def step (t : OutletTable) : Action → Option OutletTable
  | .channelOpen id app negotiated player => some (t.openAudioChannel id app negotiated player)
  | .channelClose id => some (if t.owns id then t.remove id else t)
  | .streamData id packet => some (if t.owns id then t.deliverAudioPacket id packet else t)
  | .focus foreground =>
    some (if foreground = t.foreground then t else t.setForeground foreground)
  | .take id =>
    match t.outlets.get id.raw with
    | some outlet => some (t.update id.raw { outlet with buffer := outlet.buffer.drop 1 })
    | none => none
  | .die id =>
    match t.outlets.get id.raw with
    | some outlet => some (t.update id.raw { outlet with closed := true })
    | none => none

/-! ## The rule -/

/-- The first channel of an application: it carries the tag, and no lower one does. -/
theorem isFirstChannelOfApp_iff (t : OutletTable) (app : ConnectionId) (id : UInt32) :
    t.isFirstChannelOfApp app ⟨id⟩ = true ↔
      t.appOf.get id = some app ∧ ∀ id', t.appOf.get id' = some app → id ≤ id' := by
  have hmem : ∀ id', id' ∈ (t.appOf.entries.filter fun e => e.2 = app).map Prod.fst ↔
      t.appOf.get id' = some app := by
    intro id'
    simp [Table.mem_entries]
  unfold isFirstChannelOfApp
  rw [beq_iff_eq, List.min?_eq_some_iff, hmem]
  simp only [hmem]

/-- An application with an open channel has a first one. -/
theorem exists_first {t : OutletTable} {id : UInt32} {app : ConnectionId}
    (h : t.appOf.get id = some app) : ∃ first, t.isFirstChannelOfApp app ⟨first⟩ = true := by
  have hmem : id ∈ (t.appOf.entries.filter fun e => e.2 = app).map Prod.fst := by
    simpa [Table.mem_entries] using h
  obtain ⟨first, hfirst⟩ := Option.isSome_iff_exists.mp (List.isSome_min?_of_mem hmem)
  exact ⟨first, by unfold isFirstChannelOfApp; rw [hfirst]; exact beq_self_eq_true _⟩

/-- The application is not silenced by another one in the foreground. -/
def Admits (t : OutletTable) (app : ConnectionId) : Prop :=
  t.foreground = none ∨ t.foreground = some app

instance (t : OutletTable) (app : ConnectionId) : Decidable (t.Admits app) :=
  inferInstanceAs (Decidable (_ ∨ _))

/-- A tagged channel is audible when it is the first one of an application that is admitted. -/
theorem isAudible_tagged {t : OutletTable} {id : UInt32} {app : ConnectionId}
    (hmode : t.perApplication = true) (h : t.appOf.get id = some app) :
    t.isAudible ⟨id⟩ = true ↔ t.Admits app ∧ t.isFirstChannelOfApp app ⟨id⟩ = true := by
  have howns : t.owns ⟨id⟩ = true := t.tagged id app h
  unfold isAudible Admits
  simp only [hmode, Bool.not_true, Bool.false_eq_true, if_false, howns, h]
  cases t.foreground with
  | none => simp
  | some fg =>
    simp only [Bool.and_eq_true, decide_eq_true_eq, reduceCtorEq, false_or, Option.some.injEq]
    rw [eq_comm (a := app)]

/-- The rule reads the tags, the foreground and which channels are open, and no player. -/
theorem isAudible_congr {t t' : OutletTable} {id : UInt32} (hmode : t'.perApplication = t.perApplication)
    (hfg : t'.foreground = t.foreground) (happ : t'.appOf = t.appOf)
    (howns : t'.owns ⟨id⟩ = t.owns ⟨id⟩) : t'.isAudible ⟨id⟩ = t.isAudible ⟨id⟩ := by
  unfold isAudible isFirstChannelOfApp
  rw [hmode, hfg, happ, howns]

/-! ## Players that obey the rule -/

/-- Every player's flag is what the rule says of its channel. -/
def PlayersMatch (t : OutletTable) : Prop :=
  ∀ id outlet, t.outlets.get id = some outlet → outlet.audible = t.isAudible ⟨id⟩

/-- Every application with an open channel is heard on exactly one, unless another one is in the
foreground. -/
def HeardOnce (t : OutletTable) : Prop :=
  t.perApplication = true → ∀ app, (∃ id, t.appOf.get id = some app) → t.Admits app →
    ∃! id, t.appOf.get id = some app ∧ ∃ outlet, t.outlets.get id = some outlet ∧ outlet.audible = true

theorem PlayersMatch.heardOnce {t : OutletTable} (h : t.PlayersMatch) : t.HeardOnce := by
  intro hmode app ⟨id, hid⟩ hadmits
  obtain ⟨first, hfirst⟩ := exists_first hid
  obtain ⟨htag, hleast⟩ := (isFirstChannelOfApp_iff t app first).mp hfirst
  obtain ⟨outlet, hget⟩ := Option.isSome_iff_exists.mp (t.tagged first app htag)
  refine ⟨first, ⟨htag, outlet, hget, ?_⟩, ?_⟩
  · rw [h first outlet hget]
    exact (isAudible_tagged hmode htag).mpr ⟨hadmits, hfirst⟩
  · rintro other ⟨htag', outlet', hget', haudible⟩
    rw [h other outlet' hget', isAudible_tagged hmode htag', isFirstChannelOfApp_iff] at haudible
    exact UInt32.le_antisymm (haudible.2.2 first htag) (hleast other htag')

theorem playersMatch_refresh (t : OutletTable) : t.refreshAudibility.PlayersMatch := by
  intro id outlet h
  have howns : t.refreshAudibility.owns ⟨id⟩ = t.owns ⟨id⟩ := by
    unfold owns refreshAudibility
    rw [Table.get_mapValues, Option.isSome_map]
  have hrule : t.refreshAudibility.isAudible ⟨id⟩ = t.isAudible ⟨id⟩ :=
    isAudible_congr rfl rfl rfl howns
  rw [hrule]
  unfold refreshAudibility at h
  rw [Table.get_mapValues, Option.map_eq_some_iff] at h
  obtain ⟨old, -, rfl⟩ := h
  rfl

/-- An outlet whose flag stays. -/
theorem PlayersMatch.update {t : OutletTable} (h : t.PlayersMatch) {id : UInt32}
    {old outlet : AudioOutlet} (hold : t.outlets.get id = some old)
    (hflag : outlet.audible = old.audible) : (t.update id outlet).PlayersMatch := by
  have howns : ∀ id', (t.update id outlet).owns ⟨id'⟩ = t.owns ⟨id'⟩ := by
    intro id'
    unfold owns OutletTable.update
    rw [Table.get_put]
    split
    · rename_i heq
      subst heq
      rw [hold]
      rfl
    · rfl
  intro id' outlet' h'
  have hrule : (t.update id outlet).isAudible ⟨id'⟩ = t.isAudible ⟨id'⟩ :=
    isAudible_congr rfl rfl rfl (howns id')
  rw [hrule]
  unfold OutletTable.update at h'
  rw [Table.get_put] at h'
  split at h'
  · rename_i heq
    subst heq
    obtain rfl := Option.some.inj h'
    rw [hflag]
    exact h id' old hold
  · exact h id' outlet' h'

/-! ## Removals -/

/-- The channel on which an application is heard, and the application has another one. -/
def HandsOver (t : OutletTable) (id : ConnectionId) : Prop :=
  t.perApplication = true ∧ t.isAudible id = true ∧
    ∃ e ∈ t.appOf.entries, e.1 ≠ id.raw ∧ t.appOf.get id.raw = some e.2

instance (t : OutletTable) (id : ConnectionId) : Decidable (t.HandsOver id) :=
  inferInstanceAs (Decidable (_ ∧ _ ∧ _))

theorem get_remove_of_ne {t : OutletTable} {id : ConnectionId} {id' : UInt32} (h : id' ≠ id.raw) :
    (t.remove id).outlets.get id' = t.outlets.get id' ∧
      (t.remove id).appOf.get id' = t.appOf.get id' :=
  ⟨Table.get_remove_of_ne _ h, Table.get_remove_of_ne _ h⟩

/-- What the first channel of an application is after a removal. -/
theorem isFirst_remove {t : OutletTable} {id : ConnectionId} {id' : UInt32} {app : ConnectionId} :
    (t.remove id).isFirstChannelOfApp app ⟨id'⟩ = true ↔
      id' ≠ id.raw ∧ t.appOf.get id' = some app ∧
        ∀ j, j ≠ id.raw → t.appOf.get j = some app → id' ≤ j := by
  have hget : ∀ j, (t.remove id).appOf.get j = some app ↔ j ≠ id.raw ∧ t.appOf.get j = some app := by
    intro j
    unfold remove
    rw [Table.get_remove]
    by_cases hj : j = id.raw <;> simp [hj]
  rw [isFirstChannelOfApp_iff]
  simp only [hget]
  constructor
  · rintro ⟨⟨hne, htag⟩, hleast⟩
    exact ⟨hne, htag, fun j hj htag' => hleast j ⟨hj, htag'⟩⟩
  · rintro ⟨hne, htag, hleast⟩
    exact ⟨⟨hne, htag⟩, fun j hj => hleast j hj.1 hj.2⟩

/-- A removal that hands nothing over changes the rule for no other channel. -/
theorem isAudible_remove {t : OutletTable} {id : ConnectionId} (hno : ¬ t.HandsOver id) {id' : UInt32}
    (hne : id' ≠ id.raw) (howns : t.owns ⟨id'⟩ = true) :
    (t.remove id).isAudible ⟨id'⟩ = t.isAudible ⟨id'⟩ := by
  have howns' : (t.remove id).owns ⟨id'⟩ = true := by
    unfold owns at howns ⊢
    rw [(get_remove_of_ne hne).1]
    exact howns
  have htag := (get_remove_of_ne (t := t) hne).2
  cases hmode : t.perApplication with
  | false =>
    have hmode' : (t.remove id).perApplication = false := hmode
    unfold isAudible
    rw [hmode, hmode']
    rfl
  | true =>
    have hmode' : (t.remove id).perApplication = true := hmode
    cases hget : t.appOf.get id' with
    | none =>
      rw [hget] at htag
      unfold isAudible
      simp only [hmode, hmode', howns, howns', hget, htag]
      rfl
    | some app =>
      rw [hget] at htag
      rw [Bool.eq_iff_iff, isAudible_tagged hmode hget, isAudible_tagged hmode' htag, isFirst_remove,
        isFirstChannelOfApp_iff]
      show t.Admits app ∧ _ ↔ _
      constructor
      · rintro ⟨hadmits, -, -, hleast⟩
        refine ⟨hadmits, hget, ?_⟩
        intro j hj
        by_cases hjid : j = id.raw
        · subst hjid
          by_contra hlt
          have hlt : id.raw ≤ id' := UInt32.le_of_lt (UInt32.not_le.mp hlt)
          -- then `id` was the first, and the application had `id'` as well
          apply hno
          refine ⟨hmode, (isAudible_tagged hmode hj).mpr ⟨hadmits, ?_⟩, (id', app), ?_, hne, hj⟩
          · rw [isFirstChannelOfApp_iff]
            refine ⟨hj, fun j hj' => ?_⟩
            by_cases hjid : j = id.raw
            · rw [hjid]
              exact UInt32.le_refl _
            · exact UInt32.le_trans hlt (hleast j hjid hj')
          · exact Table.mem_entries.mpr hget
        · exact hleast j hjid hj
      · rintro ⟨hadmits, -, hleast⟩
        exact ⟨hadmits, hne, hget, fun j _ hj => hleast j hj⟩

/-- **A removal** leaves the players as the rule has them if and only if it hands nothing over. -/
theorem playersMatch_remove {t : OutletTable} (h : t.PlayersMatch) (id : ConnectionId) :
    (t.remove id).PlayersMatch ↔ ¬ t.HandsOver id := by
  constructor
  · rintro hmatch ⟨hmode, haudible, ⟨other, app⟩, hmem, hne, htag⟩
    have hmode' : (t.remove id).perApplication = true := hmode
    have hother : t.appOf.get other = some app := Table.mem_entries.mp hmem
    obtain ⟨hadmits, hfirst⟩ := (isAudible_tagged hmode htag).mp haudible
    -- the channel that is the first now has a player that was muted
    obtain ⟨next, hnext⟩ := exists_first ((get_remove_of_ne (t := t) hne).2.trans hother)
    obtain ⟨hne', htag', -⟩ := isFirst_remove.mp hnext
    have htag'' : (t.remove id).appOf.get next = some app := (get_remove_of_ne hne').2.trans htag'
    obtain ⟨outlet, hget⟩ := Option.isSome_iff_exists.mp (t.tagged next app htag')
    have hheard : (t.remove id).isAudible ⟨next⟩ = true :=
      (isAudible_tagged hmode' htag'').mpr ⟨hadmits, hnext⟩
    have hflag := hmatch next outlet ((get_remove_of_ne hne').1.trans hget)
    rw [hheard, h next outlet hget, isAudible_tagged hmode htag', isFirstChannelOfApp_iff] at hflag
    exact hne' (UInt32.le_antisymm (hflag.2.2 _ htag)
      (((isFirstChannelOfApp_iff t app id.raw).mp hfirst).2 next htag'))
  · intro hno id' outlet hget
    have hne : id' ≠ id.raw := by
      rintro rfl
      unfold remove at hget
      rw [Table.get_remove_self] at hget
      contradiction
    rw [(get_remove_of_ne hne).1] at hget
    have howns : t.owns ⟨id'⟩ = true := by
      unfold owns
      rw [hget]
      rfl
    rw [isAudible_remove hno hne howns]
    exact h id' outlet hget

/-! ## Whole runs -/

/-- The channel that a step removes: one that the relay closes, or one whose player is found gone. -/
def removes (t : OutletTable) : Action → Option ConnectionId
  | .channelClose id => if t.owns id then some id else none
  | .streamData id _ => if (t.outlets.get id.raw).any AudioOutlet.closed then some id else none
  | _ => none

/-- No application loses the channel on which it is heard while it has another one. -/
def KeepsFirst (t : OutletTable) (a : Action) : Prop := ∀ id ∈ t.removes a, ¬ t.HandsOver id

instance (t : OutletTable) (a : Action) : Decidable (t.KeepsFirst a) :=
  inferInstanceAs (Decidable (∀ id ∈ t.removes a, _))

theorem keepsFirst_of_none {t : OutletTable} {a : Action} (h : t.removes a = none) :
    t.KeepsFirst a := by
  intro id hid
  rw [h] at hid
  contradiction

theorem keepsFirst_of_some {t : OutletTable} {a : Action} {id : ConnectionId}
    (h : t.removes a = some id) : t.KeepsFirst a ↔ ¬ t.HandsOver id := by
  unfold KeepsFirst
  rw [h]
  simp

theorem deliverAudioPacket_of_alive {t : OutletTable} {id : ConnectionId} {outlet : AudioOutlet}
    (h : t.outlets.get id.raw = some outlet) (halive : outlet.closed = false) (packet : Bytes) :
    t.deliverAudioPacket id packet = t.update id.raw (outlet.deliver packet).2 := by
  have hdeliver : (outlet.deliver packet).1 = true := by
    unfold AudioOutlet.deliver
    rw [halive]
    simp only [Bool.false_eq_true, if_false]
    split <;> rfl
  unfold deliverAudioPacket deliver
  rw [h]
  simp only [hdeliver, if_true]

theorem deliverAudioPacket_of_closed {t : OutletTable} {id : ConnectionId} {outlet : AudioOutlet}
    (h : t.outlets.get id.raw = some outlet) (hclosed : outlet.closed = true) (packet : Bytes) :
    t.deliverAudioPacket id packet = (t.update id.raw outlet).remove id := by
  unfold deliverAudioPacket deliver AudioOutlet.deliver
  rw [h]
  simp only [hclosed, if_true, Bool.false_eq_true, if_false]

/-- A step that removes nobody leaves the players as the rule has them. -/
theorem step_playersMatch_of_none {t t' : OutletTable} {a : Action} (h : t.PlayersMatch)
    (hnone : t.removes a = none) (hstep : t.step a = some t') : t'.PlayersMatch := by
  cases a with
  | channelOpen id app negotiated player =>
    obtain rfl := Option.some.inj hstep
    unfold openAudioChannel
    split
    · exact playersMatch_refresh _
    · exact h
  | channelClose id =>
    obtain rfl := Option.some.inj hstep
    simp only [removes] at hnone
    split at hnone
    · contradiction
    · rename_i howns
      rw [if_neg howns]
      exact h
  | streamData id packet =>
    obtain rfl := Option.some.inj hstep
    simp only [removes] at hnone
    unfold owns
    cases hget : t.outlets.get id.raw with
    | none => exact h
    | some outlet =>
      rw [hget] at hnone
      have halive : outlet.closed = false := by
        cases hclosed : outlet.closed with
        | false => rfl
        | true => simp [hclosed] at hnone
      rw [if_pos (Option.isSome_some : (some outlet).isSome = true),
        deliverAudioPacket_of_alive hget halive]
      exact h.update hget (outlet.deliver_audible packet)
  | focus foreground =>
    obtain rfl := Option.some.inj hstep
    split
    · exact h
    · exact playersMatch_refresh _
  | take id =>
    simp only [step] at hstep
    split at hstep
    · rename_i hget
      obtain rfl := Option.some.inj hstep
      exact h.update hget rfl
    · contradiction
  | die id =>
    simp only [step] at hstep
    split at hstep
    · rename_i hget
      obtain rfl := Option.some.inj hstep
      exact h.update hget rfl
    · contradiction

/-- **One step.** -/
theorem step_playersMatch {t t' : OutletTable} {a : Action} (h : t.PlayersMatch)
    (hstep : t.step a = some t') : t'.PlayersMatch ↔ t.KeepsFirst a := by
  cases hremoves : t.removes a with
  | none =>
    exact iff_of_true (step_playersMatch_of_none h hremoves hstep) (keepsFirst_of_none hremoves)
  | some id =>
    rw [keepsFirst_of_some hremoves]
    cases a with
    | channelClose id' =>
      obtain rfl := Option.some.inj hstep
      simp only [removes] at hremoves
      split at hremoves
      · rename_i howns
        obtain rfl := Option.some.inj hremoves
        rw [if_pos howns]
        exact playersMatch_remove h _
      · contradiction
    | streamData id' packet =>
      obtain rfl := Option.some.inj hstep
      simp only [removes] at hremoves
      cases hget : t.outlets.get id'.raw with
      | none => simp [hget] at hremoves
      | some outlet =>
        obtain ⟨hclosed, rfl⟩ : outlet.closed = true ∧ id' = id := by
          rw [hget] at hremoves
          split at hremoves
          · rename_i hany
            exact ⟨by simpa using hany, Option.some.inj hremoves⟩
          · contradiction
        have howns : t.owns id' = true := by
          unfold owns
          rw [hget]
          rfl
        -- the outlet is put back as it was before it is removed
        have hupdate := h.update hget (rfl : outlet.audible = outlet.audible)
        have howns' : (t.update id'.raw outlet).owns id' = t.owns id' := by
          rw [howns]
          unfold owns OutletTable.update
          rw [Table.get_put_self]
          rfl
        have hrule : (t.update id'.raw outlet).isAudible id' = t.isAudible id' :=
          isAudible_congr rfl rfl rfl howns'
        have hover : (t.update id'.raw outlet).HandsOver id' ↔ t.HandsOver id' := by
          unfold HandsOver
          rw [hrule]
          exact Iff.rfl
        rw [if_pos howns, deliverAudioPacket_of_closed hget hclosed, playersMatch_remove hupdate, hover]
    | channelOpen _ _ _ _ => contradiction
    | focus _ => contradiction
    | take _ => contradiction
    | die _ => contradiction

/-- **The players** are fed as the rule says in all states of a run, and with them every application that
the foreground admits is heard on exactly one of its channels, if and only if no step of the run removes
the channel on which an application is heard while the application has another one. -/
theorem players_match_iff (perApplication : Bool) (as : List Action) (t : OutletTable)
    (hr : run step (new perApplication) as = some t) :
    (∀ pre t', pre <+: as → run step (new perApplication) pre = some t' →
      t'.PlayersMatch ∧ t'.HeardOnce) ↔ Meets step KeepsFirst (new perApplication) as := by
  have hinit : (new perApplication).PlayersMatch := fun _ _ h => nomatch h
  rw [← states_iff_meets (fun _ _ _ => step_playersMatch) hinit hr]
  constructor
  · exact fun h pre t' hpre ht' => (h pre t' hpre ht').1
  · exact fun h pre t' hpre ht' => ⟨h pre t' hpre ht', (h pre t' hpre ht').heardOnce⟩

/-- Two channels of one application and one of another; the second channel goes, and the foreground
changes. -/
def secondGoes : List Action :=
  [.channelOpen ⟨10⟩ (some ⟨1⟩) true true, .channelOpen ⟨11⟩ (some ⟨1⟩) true true,
    .channelOpen ⟨12⟩ (some ⟨2⟩) true true, .streamData ⟨11⟩ [5], .die ⟨11⟩, .streamData ⟨11⟩ [6],
    .focus (some ⟨2⟩), .channelClose ⟨10⟩, .focus none]

/-- The first channel of the application goes. -/
def firstGoes : List Action :=
  [.channelOpen ⟨10⟩ (some ⟨1⟩) true true, .channelOpen ⟨11⟩ (some ⟨1⟩) true true, .channelClose ⟨10⟩]

theorem players_match_iff_second :
    (run step (new true) secondGoes).isSome = true ∧
      ∀ pre t, pre <+: secondGoes → run step (new true) pre = some t → t.PlayersMatch ∧ t.HeardOnce :=
  ⟨rfl, (players_match_iff true secondGoes _ rfl).mpr (by decide)⟩

/-- The channel that is left is the one to be heard, and its player stays muted. -/
theorem first_goes_silent :
    ¬ ∀ (perApplication : Bool) (as : List Action) (t : OutletTable),
      run step (new perApplication) as = some t → t.PlayersMatch := by
  intro h
  have hmatch := h true firstGoes _ rfl 11 ⟨⟨11⟩, [], false, false⟩ rfl
  exact absurd hmatch (by decide)

end OutletTable

end RemoteX11.Client
