/-
  No audio channel outlives its X11 connection, provided the relay comes first.

  What the hub does to the connections it has channels for is said by `conns_attach`, `conns_detach`,
  `conns_finishDetach` and `conns_surrounding`; `Inv` follows a connection, its events and its channel
  through the listener's task and the relay task. One turn can leave a channel without its connection:
  the listener's own unregistering while the relay has not detached the channel, or an attachment that
  comes after it (`step_noOrphans_iff`).
-/
import RemoteX11.Audio.Attachments
import RemoteX11.Lib.Run

namespace RemoteX11.Audio

open RemoteX11.Lib RemoteX11.Protocol

/-! ## What the hub does to its connections -/

theorem shipData_conn (seq : UInt32) (packet : Bytes) (lanes : Lanes) (ch : Channel) :
    (shipData seq packet lanes ch).2.1.appConnectionId = ch.appConnectionId := by
  unfold shipData
  split <;> rfl

theorem ship_conn (seq : UInt32) (packet : Bytes) (lanes : Lanes) (ch : Channel) :
    (ship seq packet lanes ch).2.1.appConnectionId = ch.appConnectionId := by
  unfold ship
  split
  · exact shipData_conn seq packet lanes ch
  · split
    · rfl
    · exact shipData_conn seq packet _ _

theorem shipAll_conns (seq : UInt32) (packet : Bytes) (channels : List Channel) (lanes : Lanes) :
    (shipAll seq packet channels lanes).2.map (fun r => r.1.appConnectionId) =
      channels.map Channel.appConnectionId := by
  induction channels generalizing lanes with
  | nil => rfl
  | cons ch rest ih => exact congrArg₂ List.cons (ship_conn seq packet lanes ch) (ih _)

theorem fanOut_conns (seq : UInt32) (packet : Bytes) (channels : List Channel) (lanes : Lanes) :
    ((fanOut seq packet channels lanes).2.map Channel.appConnectionId).Sublist
      (channels.map Channel.appConnectionId) := by
  have hsub : (retained (shipAll seq packet channels lanes).2).Sublist
      ((shipAll seq packet channels lanes).2.map Prod.fst) := List.filter_sublist
  rw [← shipAll_conns seq packet channels lanes]
  have hmap := hsub.map Channel.appConnectionId
  rwa [List.map_map] at hmap

theorem removeChannel_conns (conn : ConnectionId) (channels : List Channel) (lanes : Lanes) :
    (removeChannel conn channels lanes).2.map Channel.appConnectionId =
      (channels.map Channel.appConnectionId).erase conn := by
  rw [List.erase_eq_eraseP', List.eraseP_map]
  unfold removeChannel
  split
  · rename_i hnone
    rw [List.eraseP_of_forall_not (p := (· == conn) ∘ Channel.appConnectionId)]
    intro ch hch
    simpa using List.find?_eq_none.mp hnone ch hch
  · rfl

namespace Hub

variable {s t : Hub}

theorem conns_eq {app : ApplicationId} {capture : ApplicationCapture}
    (h : s.applications.get app = some capture) :
    s.conns app = capture.channels.map Channel.appConnectionId := by
  unfold conns
  rw [h]

/-- A capture that takes the place of another. -/
theorem conns_put {capture : ApplicationCapture} {app : ApplicationId}
    (ht : t.applications = s.applications.put app capture) (a : ApplicationId) :
    t.conns a = if a = app then capture.channels.map Channel.appConnectionId else s.conns a := by
  unfold conns
  rw [ht, Table.get_put]
  by_cases ha : a = app
  · rw [if_pos ha, if_pos ha]
  · rw [if_neg ha, if_neg ha]

theorem conns_remove {app : ApplicationId} (ht : t.applications = s.applications.remove app)
    (a : ApplicationId) : t.conns a = if a = app then [] else s.conns a := by
  unfold conns
  rw [ht, Table.get_remove]
  by_cases ha : a = app
  · rw [if_pos ha, if_pos ha]
  · rw [if_neg ha, if_neg ha]

/-- The hub has no channel that it did not have. -/
def Shrinks (s t : Hub) : Prop := ∀ app, (t.conns app).Sublist (s.conns app)

theorem Shrinks.of_eq (h : t.applications = s.applications) : s.Shrinks t := by
  intro app
  unfold conns
  rw [h]

theorem Shrinks.put {capture : ApplicationCapture} {app : ApplicationId}
    (ht : t.applications = s.applications.put app capture)
    (hsub : (capture.channels.map Channel.appConnectionId).Sublist (s.conns app)) : s.Shrinks t := by
  intro a
  rw [conns_put ht]
  split
  · rename_i ha
    exact ha ▸ hsub
  · exact List.Sublist.refl _

theorem Shrinks.tags (h : s.Shrinks t) {c : ConnectionId} (ht : t.Tags c) : s.Tags c := by
  obtain ⟨app, hmem⟩ := tags_iff.mp ht
  exact tags_iff.mpr ⟨app, (h app).subset hmem⟩

theorem shrinks_move {app : ApplicationId} {next : CaptureTask → Option CaptureTask}
    (h : s.move app next = some t) : s.Shrinks t := by
  simp only [move, Option.bind_eq_bind, Option.bind_eq_some_iff, Option.some.injEq] at h
  obtain ⟨capture, hget, task, -, task', -, rfl⟩ := h
  apply Shrinks.put rfl
  rw [conns_eq hget]

theorem shrinks_ship {app : ApplicationId} {seq : UInt32} {data : Bytes}
    (h : s.ship app seq data = some t) : s.Shrinks t := by
  simp only [ship, Option.bind_eq_bind, Option.bind_eq_some_iff] at h
  obtain ⟨capture, hget, h⟩ := h
  split at h
  · cases h
    apply Shrinks.put rfl
    rw [conns_eq hget]
    exact fanOut_conns seq data _ _
  · contradiction

theorem shrinks_surrounding {a : Action} (ha : a.isSurrounding = true) (h : s.step a = some t) :
    s.Shrinks t := by
  cases a with
  | attach => contradiction
  | detach => contradiction
  | finishDetach => contradiction
  | subscribe client lane =>
    simp only [step] at h
    split at h
    · contradiction
    · cases h
      exact Shrinks.of_eq rfl
  | allocate =>
    cases h
    exact Shrinks.of_eq rfl
  | resolve app => exact shrinks_move h
  | found app => exact shrinks_move h
  | fail app reason => exact shrinks_move h
  | packet app seq data => exact shrinks_ship h
  | flow lane m =>
    cases h
    exact Shrinks.of_eq rfl
  | take lane =>
    cases h
    exact Shrinks.of_eq rfl
  | close lane =>
    cases h
    exact Shrinks.of_eq rfl

/-- An attachment adds its connection to the application, if the client has a lane. -/
theorem conns_attach {app : ApplicationId} {conn client : ConnectionId}
    (h : s.step (.attach app conn client) = some t) (a : ApplicationId) :
    t.conns a = if a = app ∧ (s.clientLane client).isSome then s.conns app ++ [conn] else s.conns a := by
  simp only [step] at h
  split at h
  · contradiction
  · cases hlane : s.clientLane client with
    | none =>
      rw [hlane] at h
      cases h
      simp
    | some lane =>
      rw [hlane] at h
      cases h
      unfold attachConnection
      rw [conns_put rfl]
      by_cases ha : a = app
      · subst ha
        unfold conns
        cases hget : s.applications.get a <;> simp [ApplicationCapture.start]
      · simp [ha]

theorem tags_attach {app : ApplicationId} {conn client : ConnectionId}
    (h : s.step (.attach app conn client) = some t) (c : ConnectionId) :
    t.Tags c ↔ s.Tags c ∨ c = conn ∧ (s.clientLane client).isSome = true := by
  rw [tags_iff, tags_iff]
  simp only [conns_attach h]
  by_cases hlane : (s.clientLane client).isSome = true
  · constructor
    · rintro ⟨a, hmem⟩
      split at hmem
      · rcases List.mem_append.mp hmem with hmem | hmem
        · exact .inl ⟨app, hmem⟩
        · exact .inr ⟨List.mem_singleton.mp hmem, hlane⟩
      · exact .inl ⟨a, hmem⟩
    · rintro (⟨a, hmem⟩ | ⟨rfl, -⟩)
      · refine ⟨a, ?_⟩
        split
        · rename_i ha
          exact List.mem_append_left _ (ha.1 ▸ hmem)
        · exact hmem
      · exact ⟨app, by simp [hlane]⟩
  · simp [hlane]

/-- A detachment takes away one of the connections of the application. -/
theorem conns_detach {app : ApplicationId} {conn : ConnectionId}
    (h : s.step (.detach app conn) = some t) (a : ApplicationId) :
    t.conns a = if a = app then (s.conns app).erase conn else s.conns a := by
  simp only [step] at h
  split at h
  · contradiction
  · cases hget : s.applications.get app with
    | none =>
      rw [hget] at h
      cases h
      have hnil : s.conns app = [] := by
        unfold conns
        rw [hget]
      by_cases ha : a = app
      · rw [if_pos ha, ha, hnil, List.erase_nil]
      · rw [if_neg ha]
    | some capture =>
      rw [hget] at h
      cases h
      rw [conns_put rfl, conns_eq hget]
      simp only [removeChannel_conns]

theorem shrinks_detach {app : ApplicationId} {conn : ConnectionId}
    (h : s.step (.detach app conn) = some t) : s.Shrinks t := by
  intro a
  rw [conns_detach h]
  split
  · rename_i ha
    exact ha ▸ List.erase_sublist
  · exact List.Sublist.refl _

theorem conns_finishDetach (h : s.step .finishDetach = some t) (a : ApplicationId) :
    t.conns a = s.conns a := by
  simp only [step] at h
  split at h
  · contradiction
  · rename_i app hlocked
    cases h
    by_cases hempty : (s.applications.get app).any fun capture => capture.channels.isEmpty
    · rw [conns_remove (if_pos hempty)]
      split
      · rename_i ha
        obtain ⟨capture, hget, hnil⟩ := Option.any_eq_true _ _ |>.mp hempty
        rw [ha, conns_eq hget, List.isEmpty_iff.mp hnil, List.map_nil]
      · rfl
    · unfold conns
      rw [if_neg hempty]

end Hub

/-! ## The invariant -/

/-- How far the listener's task is. -/
def Pump.place : Pump → Nat
  | .enrolling => 0
  | .announcing => 1
  | .pumping => 2
  | .ending => 3
  | .removing => 4
  | .forgetting => 5
  | .gone => 6

/-- How far it is when it has sent the event. -/
def Event.place : Event → Nat
  | .connected _ => 2
  | .disconnected _ => 4

/-- The application that was looked up. -/
def Turn.app : Turn → Option ApplicationId
  | .joining app => app
  | .leaving app => app
  | _ => none

/-- There may be a channel to take away yet. -/
def Turn.mayHold : Turn → Bool
  | .leaving (some _) => true
  | _ => false

namespace Server

variable {s t : Server}

/-- What the relay task `r` relies on in its turn, with `events` still to come. -/
structure Handles (s : Server) (r : Nat) (events : List Event) (c : ConnectionId) (turn : Turn) : Prop where
  known : ∃ k, s.conns.get c = some k ∧ k.relay = r ∧ 2 ≤ k.pump.place ∧
    ∀ app, turn.app = some app → k.peer = some app
  /-- `Connected` is the first event of a connection -/
  first : .connected c ∉ events
  absent : turn.mayHold = false → ¬ s.hub.Tags c
  dropped : turn = .forgetting → ∀ k, s.conns.get c = some k → k.listed = false
  /-- an application is looked up in the per-application tier only -/
  tier : ∀ app, turn.app = some app → (s.relays r).perApp = true

structure Inv (s : Server) : Prop where
  linked : s.applications.Linked
  rooted : ∀ c app, s.applications.rootOf c = some app →
    ∃ k, s.conns.get c = some k ∧ k.peer = some app ∧ 1 ≤ k.pump.place
  listed : ∀ c k, s.conns.get c = some k → k.listed = true → 1 ≤ k.pump.place →
    s.applications.rootOf c = k.peer
  unlisted : ∀ c k, s.conns.get c = some k → 5 ≤ k.pump.place → k.listed = false
  queued : ∀ r, ∀ e ∈ (s.relays r).x11Events,
    ∃ k, s.conns.get e.conn = some k ∧ k.relay = r ∧ e.place ≤ k.pump.place
  order : ∀ r, (s.relays r).x11Events.Pairwise fun e e' => ∀ c, e' = .connected c → e.conn ≠ c
  handling : ∀ r c turn, (s.relays r).handling = some (c, turn) →
    s.Handles r (s.relays r).x11Events c turn
  early : ∀ r c, .connected c ∈ (s.relays r).x11Events → ¬ s.hub.Tags c
  tagged : ∀ app c, c ∈ s.hub.conns app →
    ∃ k, s.conns.get c = some k ∧ k.peer = some app ∧ (s.relays k.relay).perApp = true ∧
      2 ≤ k.pump.place
  single : ∀ app, (s.hub.conns app).Nodup

/-- Every connection is there still, with its relay task and its peer, and not further back. -/
def Extends (s t : Server) : Prop :=
  ∀ c k, s.conns.get c = some k →
    ∃ k', t.conns.get c = some k' ∧ k'.relay = k.relay ∧ k'.peer = k.peer ∧ k.pump.place ≤ k'.pump.place

theorem Extends.refl (s : Server) : s.Extends s := fun _ k h => ⟨k, h, rfl, rfl, le_rfl⟩

theorem conns_setConn (c c' : ConnectionId) (k : Conn) :
    (s.setConn c k).conns.get c' = if c' = c then some k else s.conns.get c' :=
  Table.get_put _ _ _ _

theorem Handles.mono (hext : s.Extends t) (hhub : s.hub.Shrinks t.hub)
    (hperApp : ∀ i, (t.relays i).perApp = (s.relays i).perApp) {r : Nat} {events : List Event}
    {c : ConnectionId} {turn : Turn}
    (hdropped : turn = .forgetting → ∀ k, t.conns.get c = some k → k.listed = false)
    (h : s.Handles r events c turn) : t.Handles r events c turn := by
  obtain ⟨k, hk, hr, hplace, happ⟩ := h.known
  obtain ⟨k', hk', hr', hpeer, hplace'⟩ := hext c k hk
  refine ⟨⟨k', hk', hr'.trans hr, le_trans hplace hplace', ?_⟩, h.first,
    fun hturn htags => h.absent hturn (hhub.tags htags), hdropped,
    fun app hturn => (hperApp r).trans (h.tier app hturn)⟩
  intro app hturn
  exact hpeer.trans (happ app hturn)

/-- What a step of a listener's task leaves to be shown. -/
theorem Inv.frame (h : s.Inv) (hext : s.Extends t) (hrelays : t.relays = s.relays) (hhub : t.hub = s.hub)
    (hlinked : t.applications.Linked)
    (hrooted : ∀ c app, t.applications.rootOf c = some app →
      ∃ k, t.conns.get c = some k ∧ k.peer = some app ∧ 1 ≤ k.pump.place)
    (hlisted : ∀ c k, t.conns.get c = some k → k.listed = true → 1 ≤ k.pump.place →
      t.applications.rootOf c = k.peer)
    (hunlisted : ∀ c k, t.conns.get c = some k → 5 ≤ k.pump.place → k.listed = false)
    (hdropped : ∀ c k', t.conns.get c = some k' → k'.listed = true →
      ∀ k, s.conns.get c = some k → k.listed = true) : t.Inv where
  linked := hlinked
  rooted := hrooted
  listed := hlisted
  unlisted := hunlisted
  queued := by
    intro r e he
    rw [hrelays] at he
    obtain ⟨k, hk, hr, hplace⟩ := h.queued r e he
    obtain ⟨k', hk', hr', -, hplace'⟩ := hext _ k hk
    exact ⟨k', hk', hr'.trans hr, le_trans hplace hplace'⟩
  order := by
    rw [hrelays]
    exact h.order
  handling := by
    intro r c turn hturn
    rw [hrelays] at hturn ⊢
    have hh := h.handling r c turn hturn
    refine hh.mono hext (Hub.Shrinks.of_eq (by rw [hhub])) (fun i => by rw [hrelays]) ?_
    intro hforget k' hk'
    obtain ⟨k, hk, -⟩ := hh.known
    cases hl : k'.listed with
    | false => rfl
    | true => exact (hdropped c k' hk' hl k hk).symm.trans (hh.dropped hforget k hk)
  early := by
    rw [hrelays, hhub]
    exact h.early
  tagged := by
    intro app c hmem
    rw [hhub] at hmem
    rw [hrelays]
    obtain ⟨k, hk, hpeer, hperApp, hplace⟩ := h.tagged app c hmem
    obtain ⟨k', hk', hr', hpeer', hplace'⟩ := hext c k hk
    exact ⟨k', hk', hpeer'.trans hpeer, hr' ▸ hperApp, le_trans hplace hplace'⟩
  single := by
    rw [hhub]
    exact h.single

/-- What a step leaves to be shown that writes the entry of one connection. -/
theorem Inv.writeConn (h : s.Inv) {c : ConnectionId} {k' : Conn}
    (hconns : ∀ c₀, t.conns.get c₀ = if c₀ = c then some k' else s.conns.get c₀)
    (hrelays : t.relays = s.relays) (hhub : t.hub = s.hub) (hlinked : t.applications.Linked)
    (hold : ∀ k, s.conns.get c = some k → k'.relay = k.relay ∧ k'.peer = k.peer ∧
      k.pump.place ≤ k'.pump.place ∧ (k'.listed = true → k.listed = true))
    (hroots : ∀ c₀, c₀ ≠ c → t.applications.rootOf c₀ = s.applications.rootOf c₀)
    (hrooted : ∀ app, t.applications.rootOf c = some app → k'.peer = some app ∧ 1 ≤ k'.pump.place)
    (hlisted : k'.listed = true → 1 ≤ k'.pump.place → t.applications.rootOf c = k'.peer)
    (hunlisted : 5 ≤ k'.pump.place → k'.listed = false) : t.Inv := by
  have hmine : t.conns.get c = some k' := (hconns c).trans (if_pos rfl)
  have hother : ∀ c₀, c₀ ≠ c → t.conns.get c₀ = s.conns.get c₀ :=
    fun c₀ hne => (hconns c₀).trans (if_neg hne)
  refine h.frame ?_ hrelays hhub hlinked ?_ ?_ ?_ ?_
  · intro c₀ k₀ hk₀
    by_cases hc : c₀ = c
    · subst hc
      obtain ⟨hr, hpeer, hplace, -⟩ := hold k₀ hk₀
      exact ⟨k', hmine, hr, hpeer, hplace⟩
    · exact ⟨k₀, (hother c₀ hc).trans hk₀, rfl, rfl, le_rfl⟩
  · intro c₀ app hroot
    by_cases hc : c₀ = c
    · subst hc
      exact ⟨k', hmine, hrooted app hroot⟩
    · rw [hroots c₀ hc] at hroot
      rw [hother c₀ hc]
      exact h.rooted c₀ app hroot
  · intro c₀ k₀ hk₀ hl hp
    by_cases hc : c₀ = c
    · subst hc
      obtain rfl := Option.some.inj (hmine.symm.trans hk₀)
      exact hlisted hl hp
    · rw [hother c₀ hc] at hk₀
      rw [hroots c₀ hc]
      exact h.listed c₀ k₀ hk₀ hl hp
  · intro c₀ k₀ hk₀ hp
    by_cases hc : c₀ = c
    · subst hc
      obtain rfl := Option.some.inj (hmine.symm.trans hk₀)
      exact hunlisted hp
    · rw [hother c₀ hc] at hk₀
      exact h.unlisted c₀ k₀ hk₀ hp
  · intro c₀ k₁ hk₁ hl k₀ hk₀
    by_cases hc : c₀ = c
    · subst hc
      obtain rfl := Option.some.inj (hmine.symm.trans hk₁)
      exact (hold k₀ hk₀).2.2.2 hl
    · rw [hother c₀ hc] at hk₁
      obtain rfl := Option.some.inj (hk₀.symm.trans hk₁)
      exact hl

/-- The listener's task moves on. -/
theorem Inv.setConn (h : s.Inv) {c : ConnectionId} {k k' : Conn} (hk : s.conns.get c = some k)
    (hrelay : k'.relay = k.relay) (hpeer : k'.peer = k.peer) (hplace : k.pump.place ≤ k'.pump.place)
    (hlisted : k'.listed = true → k.listed = true)
    (henrolled : k'.listed = true → 1 ≤ k'.pump.place → 1 ≤ k.pump.place)
    (hunlisted : 5 ≤ k'.pump.place → k'.listed = false) : (s.setConn c k').Inv := by
  refine h.writeConn (conns_setConn c · k') rfl rfl h.linked ?_ (fun _ _ => rfl) ?_ ?_ hunlisted
  · intro k₀ hk₀
    obtain rfl := Option.some.inj (hk.symm.trans hk₀)
    exact ⟨hrelay, hpeer, hplace, hlisted⟩
  · intro app hroot
    obtain ⟨k₀, hk₀, hpeer₀, hplace₀⟩ := h.rooted c app hroot
    obtain rfl := Option.some.inj (hk.symm.trans hk₀)
    exact ⟨hpeer.trans hpeer₀, le_trans hplace₀ hplace⟩
  · intro hl hp
    exact (h.listed c k hk (hlisted hl) (henrolled hl hp)).trans hpeer.symm

theorem unlist_same (s : Server) (c : ConnectionId) : (s.unlist c).applications = s.applications ∧
    (s.unlist c).hub = s.hub ∧ (s.unlist c).relays = s.relays := by
  unfold Server.unlist
  split <;> exact ⟨rfl, rfl, rfl⟩

theorem Inv.unlist (h : s.Inv) (c : ConnectionId) : (s.unlist c).Inv := by
  unfold Server.unlist
  split
  · rename_i k hk
    exact h.setConn hk rfl rfl le_rfl (fun hl => nomatch hl) (fun hl => nomatch hl) (fun _ => rfl)
  · exact h

/-- A new connection. -/
theorem Inv.accept (h : s.Inv) {c : ConnectionId} (hc : s.conns.get c = none) (r : Nat)
    (peer : Option ApplicationId) : (s.setConn c ⟨r, peer, .enrolling, true⟩).Inv := by
  refine h.writeConn (conns_setConn c · _) rfl rfl h.linked ?_ (fun _ _ => rfl) ?_ ?_ ?_
  · intro k hk
    rw [hc] at hk
    contradiction
  · intro app hroot
    obtain ⟨k, hk, -⟩ := h.rooted c app hroot
    rw [hc] at hk
    contradiction
  · intro _ hp
    exact absurd hp (by simp [Pump.place])
  · intro hp
    exact absurd hp (by simp [Pump.place])

theorem Inv.owner_none (h : s.Inv) {c : ConnectionId} {k : Conn} (hk : s.conns.get c = some k)
    (hpump : k.pump = .enrolling) : s.applications.owner.get c = none := by
  rw [← ApplicationRegistry.owner_none_iff h.linked]
  cases hroot : s.applications.rootOf c with
  | none => rfl
  | some app =>
    obtain ⟨k₀, hk₀, -, hplace⟩ := h.rooted c app hroot
    obtain rfl := Option.some.inj (hk.symm.trans hk₀)
    rw [hpump] at hplace
    exact absurd hplace (by simp [Pump.place])

/-- The application of the connection is registered. -/
theorem Inv.enroll (h : s.Inv) {c : ConnectionId} {k : Conn} (hk : s.conns.get c = some k)
    (hpump : k.pump = .enrolling) :
    ((s.setConn c { k with pump := .announcing }).register c k.peer).Inv := by
  have hfree := h.owner_none hk hpump
  have hroot := ApplicationRegistry.rootOf_register h.linked hfree k.peer
  have hmine : ((s.setConn c { k with pump := .announcing }).register c k.peer).applications.rootOf c =
      k.peer := (hroot c).trans (if_pos rfl)
  refine h.writeConn (conns_setConn c · { k with pump := .announcing }) rfl rfl
    (ApplicationRegistry.linked_register h.linked hfree k.peer) ?_ ?_ ?_ (fun _ _ => hmine) ?_
  · intro k₀ hk₀
    obtain rfl := Option.some.inj (hk.symm.trans hk₀)
    exact ⟨rfl, rfl, by rw [hpump]; exact Nat.zero_le _, id⟩
  · exact fun c₀ hne => (hroot c₀).trans (if_neg hne)
  · intro app happ
    exact ⟨hmine.symm.trans happ, by simp [Pump.place]⟩
  · intro hp
    exact absurd hp (by simp [Pump.place])

theorem rootOf_unregister (h : s.Inv) (c c' : ConnectionId) :
    (s.unregister c).applications.rootOf c' = if c' = c then none else s.applications.rootOf c' :=
  ApplicationRegistry.rootOf_unregister h.linked c c'

/-- A connection that is not in `connections` any more is taken from the applications. -/
theorem Inv.unregister (h : s.Inv) {c : ConnectionId}
    (hc : ∀ k, s.conns.get c = some k → k.listed = false) : (s.unregister c).Inv := by
  apply h.frame (t := s.unregister c) (Extends.refl s) rfl rfl
    (ApplicationRegistry.linked_unregister h.linked c)
  · intro c₀ app hroot
    rw [rootOf_unregister h] at hroot
    split at hroot
    · contradiction
    · exact h.rooted c₀ app hroot
  · intro c₀ k₀ hk₀ hl hp
    rw [rootOf_unregister h]
    split
    · rename_i heq
      subst heq
      rw [hc k₀ hk₀] at hl
      cases hl
    · exact h.listed c₀ k₀ hk₀ hl hp
  · exact h.unlisted
  · intro c₀ k₁ hk₁ hl k₀ hk₀
    obtain rfl := Option.some.inj (hk₀.symm.trans hk₁)
    exact hl

/-! ## Turns of a relay task -/

theorem perApp_setRelay (s : Server) {r : Nat} {relay : Relay}
    (hperApp : relay.perApp = (s.relays r).perApp) (i : Nat) :
    ((s.setRelay r relay).relays i).perApp = (s.relays i).perApp := by
  unfold Server.setRelay
  simp only
  split
  · rename_i hi
    rw [hi, hperApp]
  · rfl

/-- What a step of a relay task leaves to be shown. -/
theorem Inv.setRelay (h : s.Inv) (r : Nat) {relay : Relay} (hperApp : relay.perApp = (s.relays r).perApp)
    (hqueued : ∀ e ∈ relay.x11Events,
      ∃ k, s.conns.get e.conn = some k ∧ k.relay = r ∧ e.place ≤ k.pump.place)
    (horder : relay.x11Events.Pairwise fun e e' => ∀ c, e' = .connected c → e.conn ≠ c)
    (hearly : ∀ c, .connected c ∈ relay.x11Events → ¬ s.hub.Tags c)
    (hhandling : ∀ c turn, relay.handling = some (c, turn) → s.Handles r relay.x11Events c turn) :
    (s.setRelay r relay).Inv where
  linked := h.linked
  rooted := h.rooted
  listed := h.listed
  unlisted := h.unlisted
  queued := by
    intro i e he
    unfold Server.setRelay at he
    simp only at he
    split at he
    · rename_i hi
      exact hi ▸ hqueued e he
    · exact h.queued i e he
  order := by
    intro i
    unfold Server.setRelay
    simp only
    split
    · exact horder
    · exact h.order i
  handling := by
    intro i c turn hturn
    unfold Server.setRelay at hturn ⊢
    simp only at hturn ⊢
    split at hturn
    · rename_i hi
      rw [if_pos hi]
      subst hi
      obtain ⟨hknown, hfirst, habsent, hdropped, htier⟩ := hhandling c turn hturn
      exact ⟨hknown, hfirst, habsent, hdropped, fun app happ =>
        (perApp_setRelay s hperApp _).trans (htier app happ)⟩
    · rename_i hi
      rw [if_neg hi]
      obtain ⟨hknown, hfirst, habsent, hdropped, htier⟩ := h.handling i c turn hturn
      exact ⟨hknown, hfirst, habsent, hdropped, fun app happ =>
        (perApp_setRelay s hperApp _).trans (htier app happ)⟩
  early := by
    intro i c hmem
    unfold Server.setRelay at hmem
    simp only at hmem
    split at hmem
    · exact hearly c hmem
    · exact h.early i c hmem
  tagged := by
    intro app c hmem
    obtain ⟨k, hk, hpeer, hk', hplace⟩ := h.tagged app c hmem
    exact ⟨k, hk, hpeer, (perApp_setRelay s hperApp _).trans hk', hplace⟩
  single := h.single

/-- An event is sent; `Connected` is sent before anything else of its connection. -/
theorem Inv.send (h : s.Inv) {r : Nat} {e : Event} {k : Conn} (hk : s.conns.get e.conn = some k)
    (hr : k.relay = r) (hplace : e.place ≤ k.pump.place)
    (hfresh : ∀ c, e = .connected c → ¬ s.hub.Tags c ∧ (∀ a ∈ (s.relays r).x11Events, a.conn ≠ c) ∧
      ∀ turn, (s.relays r).handling ≠ some (c, turn)) : (s.send r e).Inv := by
  unfold Server.send
  split
  · refine h.setRelay r rfl ?_ ?_ ?_ ?_
    · intro a ha
      rcases List.mem_append.mp ha with ha | ha
      · exact h.queued r a ha
      · obtain rfl := List.mem_singleton.mp ha
        exact ⟨k, hk, hr, hplace⟩
    · refine List.pairwise_append.mpr ⟨h.order r, List.pairwise_singleton _ _, ?_⟩
      intro a ha b hb c hbc
      obtain rfl := List.mem_singleton.mp hb
      exact (hfresh c hbc).2.1 a ha
    · intro c hmem
      rcases List.mem_append.mp hmem with hmem | hmem
      · exact h.early r c hmem
      · exact (hfresh c (List.mem_singleton.mp hmem).symm).1
    · intro c turn hturn
      obtain ⟨hknown, hfirst, habsent, hdropped, htier⟩ := h.handling r c turn hturn
      refine ⟨hknown, ?_, habsent, hdropped, htier⟩
      intro hmem
      rcases List.mem_append.mp hmem with hmem | hmem
      · exact hfirst hmem
      · exact (hfresh c (List.mem_singleton.mp hmem).symm).2.2 turn hturn
  · exact h

/-- The relay task goes on with what it handles. -/
theorem Inv.turnTo (h : s.Inv) (r : Nat) {next : Option (ConnectionId × Turn)}
    (hnext : ∀ c turn, next = some (c, turn) → s.Handles r (s.relays r).x11Events c turn) :
    (s.turnTo r next).Inv :=
  h.setRelay r rfl (h.queued r) (h.order r) (h.early r) hnext

/-- The hub has no channel that it did not have. -/
theorem Inv.shrink (h : s.Inv) {hub : Hub} (hshrinks : s.hub.Shrinks hub) :
    ({ s with hub := hub } : Server).Inv where
  linked := h.linked
  rooted := h.rooted
  listed := h.listed
  unlisted := h.unlisted
  queued := h.queued
  order := h.order
  handling := by
    intro r c turn hturn
    have hh := h.handling r c turn hturn
    exact hh.mono (t := { s with hub := hub }) (Extends.refl s) hshrinks (fun _ => rfl) hh.dropped
  early := fun r c hmem htags => h.early r c hmem (hshrinks.tags htags)
  tagged := fun app c hmem => h.tagged app c ((hshrinks app).subset hmem)
  single := fun app => (h.single app).sublist (hshrinks app)

/-- The relay task of a connection is the only one that handles it. -/
theorem Inv.handler_unique (h : s.Inv) {r i : Nat} {c : ConnectionId} {turn turn' : Turn}
    (hr : (s.relays r).handling = some (c, turn)) (hi : (s.relays i).handling = some (c, turn')) : i = r := by
  obtain ⟨k, hk, hkr, -⟩ := (h.handling r c turn hr).known
  obtain ⟨k', hk', hki, -⟩ := (h.handling i c turn' hi).known
  obtain rfl := Option.some.inj (hk.symm.trans hk')
  exact hki.symm.trans hkr

/-- A channel for a connection that nothing is still to come for. -/
theorem Inv.attach (h : s.Inv) {c client : ConnectionId} {app : ApplicationId} {hub : Hub} {k : Conn}
    (hstep : s.hub.step (.attach app c client) = some hub) (hk : s.conns.get c = some k)
    (hpeer : k.peer = some app) (hperApp : (s.relays k.relay).perApp = true) (hplace : 2 ≤ k.pump.place)
    (hc : ¬ s.hub.Tags c) (hqueue : ∀ r, .connected c ∉ (s.relays r).x11Events)
    (hidle : ∀ r turn, (s.relays r).handling ≠ some (c, turn)) :
    ({ s with hub := hub } : Server).Inv where
  linked := h.linked
  rooted := h.rooted
  listed := h.listed
  unlisted := h.unlisted
  queued := h.queued
  order := h.order
  handling := by
    intro r c' turn hturn
    obtain ⟨hknown, hfirst, habsent, hdropped, htier⟩ := h.handling r c' turn hturn
    refine ⟨hknown, hfirst, ?_, hdropped, htier⟩
    intro hm ht
    rcases (Hub.tags_attach hstep c').mp ht with ht | ⟨rfl, -⟩
    · exact habsent hm ht
    · exact hidle r turn hturn
  early := by
    intro r c' hmem ht
    rcases (Hub.tags_attach hstep c').mp ht with ht | ⟨rfl, -⟩
    · exact h.early r c' hmem ht
    · exact hqueue r hmem
  tagged := by
    intro a c' hmem
    simp only [Hub.conns_attach hstep] at hmem
    split at hmem
    · rename_i ha
      rcases List.mem_append.mp hmem with hmem | hmem
      · exact h.tagged a c' (ha.1 ▸ hmem)
      · rw [ha.1, List.mem_singleton.mp hmem]
        exact ⟨k, hk, hpeer, hperApp, hplace⟩
    · exact h.tagged a c' hmem
  single := by
    intro a
    simp only [Hub.conns_attach hstep]
    split
    · refine List.nodup_append.mpr ⟨h.single app, List.nodup_singleton c, ?_⟩
      rintro x hx y hy rfl
      rw [List.mem_singleton.mp hy] at hx
      exact hc (Hub.tags_iff.mpr ⟨app, hx⟩)
    · exact h.single a

/-- The channel of a connection whose `Connected` is handled. -/
theorem Inv.join (h : s.Inv) {r : Nat} {c client : ConnectionId} {app : ApplicationId} {hub : Hub}
    (hturn : (s.relays r).handling = some (c, .joining (some app)))
    (hstep : s.hub.step (.attach app c client) = some hub) :
    (({ s with hub := hub } : Server).turnTo r none).Inv := by
  have hh := h.handling r c _ hturn
  obtain ⟨k, hk, hkr, hplace, hpeer⟩ := hh.known
  have hidle : (s.turnTo r none).Inv := h.turnTo r nofun
  refine hidle.attach hstep hk (hpeer app rfl) ?_ hplace (hh.absent rfl) ?_ ?_
  · have hkeep : ((s.turnTo r none).relays k.relay).perApp = (s.relays k.relay).perApp :=
      perApp_setRelay s (by rfl) k.relay
    rw [hkeep, hkr]
    exact hh.tier app rfl
  · intro i hmem
    obtain ⟨k', hk', hki, -⟩ := hidle.queued i _ hmem
    obtain rfl := Option.some.inj (hk.symm.trans hk')
    obtain rfl : i = r := hki.symm.trans hkr
    rw [show ((s.turnTo i none).relays i).x11Events = (s.relays i).x11Events by
      simp [Server.turnTo, Server.setRelay]] at hmem
    exact hh.first hmem
  · intro i turn hi
    unfold Server.turnTo Server.setRelay at hi
    simp only at hi
    split at hi
    · contradiction
    · rename_i hne
      exact hne (h.handler_unique hturn hi)

/-- The channel is detached. -/
theorem Inv.leave (h : s.Inv) {r : Nat} {c : ConnectionId} {app : ApplicationId} {hub : Hub} {turn : Turn}
    (hturn : (s.relays r).handling = some (c, .leaving (some app)))
    (hstep : s.hub.step (.detach app c) = some hub) (hnext : turn = .finishing ∨ turn = .removing) :
    (({ s with hub := hub } : Server).turnTo r (some (c, turn))).Inv := by
  have hh := h.handling r c _ hturn
  obtain ⟨k, hk, hkr, hplace, hpeer⟩ := hh.known
  have hgone : ¬ hub.Tags c := by
    intro ht
    obtain ⟨a, hmem⟩ := Hub.tags_iff.mp ht
    rw [Hub.conns_detach hstep] at hmem
    split at hmem
    · exact (h.single app).not_mem_erase hmem
    · rename_i ha
      obtain ⟨k', hk', hpeer', -⟩ := h.tagged a c hmem
      obtain rfl := Option.some.inj (hk.symm.trans hk')
      exact ha (Option.some.inj (hpeer'.symm.trans (hpeer app rfl)))
  refine (h.shrink (Hub.shrinks_detach hstep)).turnTo r ?_
  rintro c' turn' heq
  cases heq
  refine ⟨⟨k, hk, hkr, hplace, ?_⟩, hh.first, fun _ => hgone, ?_, ?_⟩
  all_goals rcases hnext with rfl | rfl <;> nofun

/-! ## Steps -/

/-- A connection is registered exactly when the applications know it, if a channel may speak for it. -/
theorem Inv.registered_iff (h : s.Inv) {c : ConnectionId} {k : Conn} (hk : s.conns.get c = some k)
    (hplace : 2 ≤ k.pump.place) (hpeer : k.peer.isSome = true) :
    s.Registered c ↔ (s.applications.rootOf c).isSome = true := by
  refine ⟨?_, Or.inr⟩
  rintro (hl | hroot)
  · rw [hk] at hl
    rwa [h.listed c k hk hl (by omega)]
  · exact hroot

/-- Every tagged connection has its application. -/
theorem Inv.noOrphans_iff (h : s.Inv) :
    s.NoOrphans ↔ ∀ c, s.hub.Tags c → (s.applications.rootOf c).isSome = true := by
  constructor
  · intro hs c htags
    obtain ⟨app, hmem⟩ := Hub.tags_iff.mp htags
    obtain ⟨k, hk, hpeer, -, hplace⟩ := h.tagged app c hmem
    rcases hs c htags with hreg | ⟨-, hroot⟩
    · exact (h.registered_iff hk hplace (by rw [hpeer]; rfl)).mp hreg
    · exact hroot
  · intro hs c htags
    exact .inl (.inr (hs c htags))

/-- A step that leaves the applications as they are and adds no channel. -/
theorem NoOrphans.of_shrinks (h : s.Inv) (ht : t.Inv) (hs : s.NoOrphans)
    (happs : t.applications = s.applications) (hhub : s.hub.Shrinks t.hub) : t.NoOrphans := by
  rw [ht.noOrphans_iff, happs]
  intro c htags
  exact h.noOrphans_iff.mp hs c (hhub.tags htags)

/-- What is about to be attached is registered still. -/
def JoinsRegistered (s : Server) (client : ConnectionId) : Option (ConnectionId × Turn) → Prop
  | some (c, .joining (some _)) => (s.hub.clientLane client).isSome = true → s.Registered c
  | _ => True

instance (s : Server) (client : ConnectionId) :
    (handling : Option (ConnectionId × Turn)) → Decidable (s.JoinsRegistered client handling)
  | some (c, .joining (some _)) =>
    inferInstanceAs (Decidable ((s.hub.clientLane client).isSome = true → s.Registered c))
  | none | some (_, .joining none) | some (_, .leaving _) | some (_, .finishing) | some (_, .removing)
  | some (_, .forgetting) => isTrue trivial

/-- The two turns that can leave a channel behind: the listener's own unregistering comes after the
    channel is gone, and no channel is attached to a connection that is not registered any more. -/
def RelayFirst (s : Server) : ServerAction → Prop
  | .forget c => ¬ s.hub.Tags c
  | .turn r => s.JoinsRegistered (s.relays r).audioClientId (s.relays r).handling
  | _ => True

instance (s : Server) : (a : ServerAction) → Decidable (s.RelayFirst a)
  | .forget c => inferInstanceAs (Decidable (¬ s.hub.Tags c))
  | .turn r => inferInstanceAs (Decidable (s.JoinsRegistered _ (s.relays r).handling))
  | .accept _ _ _ | .enroll _ | .announce _ | .hangUp _ | .disconnect _ | .remove _ | .destroy _ | .recv _
  | .stop _ | .hub _ => isTrue trivial

theorem advance_eq_some {c : ConnectionId} {p : Pump} {next : Conn → Server} :
    s.advance c p next = some t ↔ ∃ k, s.conns.get c = some k ∧ k.pump = p ∧ next k = t := by
  unfold advance
  cases s.conns.get c with
  | none => simp
  | some k => by_cases hp : k.pump = p <;> simp [hp]

@[simp] theorem send_applications (s : Server) (r : Nat) (e : Event) :
    (s.send r e).applications = s.applications := by
  unfold send
  split <;> rfl

@[simp] theorem send_hub (s : Server) (r : Nat) (e : Event) : (s.send r e).hub = s.hub := by
  unfold send
  split <;> rfl

/-- A connection that has sent nothing is in no queue, in no turn and in no channel. -/
theorem Inv.unannounced (h : s.Inv) {c : ConnectionId} {k : Conn} (hk : s.conns.get c = some k)
    (hplace : k.pump.place < 2) :
    ¬ s.hub.Tags c ∧ (∀ r, ∀ e ∈ (s.relays r).x11Events, e.conn ≠ c) ∧
      ∀ r turn, (s.relays r).handling ≠ some (c, turn) := by
  refine ⟨?_, ?_, ?_⟩
  · intro htags
    obtain ⟨app, hmem⟩ := Hub.tags_iff.mp htags
    obtain ⟨k', hk', -, -, hplace'⟩ := h.tagged app c hmem
    obtain rfl := Option.some.inj (hk.symm.trans hk')
    omega
  · rintro r e he rfl
    obtain ⟨k', hk', -, hplace'⟩ := h.queued r e he
    obtain rfl := Option.some.inj (hk.symm.trans hk')
    have htwo : 2 ≤ e.place := by cases e <;> simp [Event.place]
    omega
  · intro r turn hturn
    obtain ⟨k', hk', -, hplace', -⟩ := (h.handling r c turn hturn).known
    obtain rfl := Option.some.inj (hk.symm.trans hk')
    omega

/-- A new connection that is told to its relay task. -/
theorem Inv.announce (h : s.Inv) {c : ConnectionId} {k : Conn} (hk : s.conns.get c = some k)
    (hpump : k.pump = .announcing) :
    ((s.setConn c { k with pump := .pumping }).send k.relay (.connected c)).Inv := by
  have hset : (s.setConn c { k with pump := .pumping }).Inv :=
    h.setConn hk rfl rfl (by simp [hpump, Pump.place]) id (by simp [hpump, Pump.place])
      (by simp [Pump.place])
  obtain ⟨htags, hqueue, hturn⟩ := h.unannounced hk (by simp [hpump, Pump.place])
  refine hset.send (k := { k with pump := .pumping }) ((conns_setConn _ _ _).trans (if_pos rfl)) rfl
    (by simp [Event.place, Pump.place]) ?_
  rintro c' heq
  cases heq
  exact ⟨htags, hqueue k.relay, hturn k.relay⟩

/-- The turns of a relay task that handles an event. -/
theorem Inv.nextTurn (h : s.Inv) {r : Nat} {c : ConnectionId} {turn : Turn}
    (hturn : (s.relays r).handling = some (c, turn)) (hstep : s.nextTurn r c turn = some t) : t.Inv := by
  have hh := h.handling r c turn hturn
  cases turn with
  | joining app =>
    cases app with
    | none =>
      cases hstep
      exact h.turnTo r nofun
    | some app =>
      obtain ⟨hub, hhub, ht⟩ := Option.bind_eq_some_iff.mp hstep
      cases ht
      exact h.join hturn hhub
  | leaving app =>
    cases app with
    | none =>
      cases hstep
      apply h.turnTo r
      rintro c' turn' heq
      cases heq
      obtain ⟨k, hk, hkr, hplace, -⟩ := hh.known
      exact ⟨⟨k, hk, hkr, hplace, nofun⟩, hh.first, fun _ => hh.absent rfl, nofun, nofun⟩
    | some app =>
      obtain ⟨hub, hhub, ht⟩ := Option.bind_eq_some_iff.mp hstep
      cases ht
      apply h.leave hturn hhub
      split
      · exact .inl rfl
      · exact .inr rfl
  | finishing =>
    obtain ⟨hub, hhub, ht⟩ := Option.bind_eq_some_iff.mp hstep
    cases ht
    have hshrinks : s.hub.Shrinks hub := fun app => by rw [Hub.conns_finishDetach hhub]
    apply (h.shrink hshrinks).turnTo r
    rintro c' turn' heq
    cases heq
    obtain ⟨k, hk, hkr, hplace, -⟩ := hh.known
    exact ⟨⟨k, hk, hkr, hplace, nofun⟩, hh.first, fun _ ht => hh.absent rfl (hshrinks.tags ht), nofun,
      nofun⟩
  | removing =>
    cases hstep
    obtain ⟨k, hk, hkr, hplace, -⟩ := hh.known
    have hget : (s.unlist c).conns.get c = some { k with listed := false } := by
      unfold Server.unlist
      rw [hk]
      exact (conns_setConn _ _ _).trans (if_pos rfl)
    obtain ⟨-, hhub, hrelays⟩ := unlist_same s c
    apply (h.unlist c).turnTo r
    rintro c' turn' heq
    cases heq
    rw [hrelays]
    refine ⟨⟨_, hget, hkr, hplace, nofun⟩, hh.first, ?_, ?_, nofun⟩
    · rw [hhub]
      exact fun _ => hh.absent rfl
    · rintro - k' hk'
      obtain rfl := Option.some.inj (hget.symm.trans hk')
      rfl
  | forgetting =>
    cases hstep
    exact (h.unregister (hh.dropped rfl)).turnTo r nofun

/-- An event is taken. The application of a connection with a channel is found, as long as no channel
    has been left behind. -/
theorem Inv.recv (h : s.Inv) (hs : s.NoOrphans) {r : Nat} {e : Event} {rest : List Event}
    (hevents : (s.relays r).x11Events = e :: rest) :
    (s.setRelay r { s.relays r with
      x11Events := rest, handling := s.firstTurn (s.relays r) e }).Inv := by
  have horder := h.order r
  rw [hevents, List.pairwise_cons] at horder
  obtain ⟨k, hk, hkr, hplace⟩ := h.queued r e (by rw [hevents]; exact List.mem_cons_self)
  have htwo : 2 ≤ k.pump.place := le_trans (by cases e <;> simp [Event.place]) hplace
  have hfirst : .connected e.conn ∉ rest := fun hmem => horder.1 _ hmem _ rfl rfl
  -- a root that is found is the peer's
  have hpeer : ∀ app, s.applications.rootOf e.conn = some app → k.peer = some app := by
    intro app hroot
    obtain ⟨k', hk', hpeer, -⟩ := h.rooted _ app hroot
    obtain rfl := Option.some.inj (hk.symm.trans hk')
    exact hpeer
  apply h.setRelay r
  · rfl
  · intro e' he'
    exact h.queued r e' (by rw [hevents]; exact List.mem_cons_of_mem _ he')
  · exact horder.2
  · intro c hmem
    exact h.early r c (by rw [hevents]; exact List.mem_cons_of_mem _ hmem)
  · intro c turn hturn
    cases e with
    | connected c' =>
      have hc : ¬ s.hub.Tags c' := h.early r c' (by rw [hevents]; exact List.mem_cons_self)
      simp only [firstTurn] at hturn
      split at hturn
      · rename_i htier
        cases hturn
        exact ⟨⟨k, hk, hkr, htwo, hpeer⟩, hfirst, fun _ => hc, by simp, fun _ _ => htier⟩
      · contradiction
    | disconnected c' =>
      simp only [firstTurn] at hturn
      cases hturn
      split
      · rename_i htier
        refine ⟨⟨k, hk, hkr, htwo, hpeer⟩, hfirst, ?_, by simp, fun _ _ => htier⟩
        intro hm htags
        obtain ⟨app, hroot⟩ := Option.isSome_iff_exists.mp (h.noOrphans_iff.mp hs _ htags)
        rw [hroot] at hm
        cases hm
      · rename_i htier
        refine ⟨⟨k, hk, hkr, htwo, by simp [Turn.app]⟩, hfirst, ?_, by simp, by simp [Turn.app]⟩
        -- without the tier its relay task has attached nothing
        rintro - htags
        obtain ⟨app, hmem⟩ := Hub.tags_iff.mp htags
        obtain ⟨k', hk', -, hperApp, -⟩ := h.tagged app _ hmem
        obtain rfl := Option.some.inj (hk.symm.trans hk')
        exact htier (hkr ▸ hperApp)

/-- A step that adds no channel and leaves the applications alone. -/
theorem Inv.still (h : s.Inv) (hs : s.NoOrphans) (ht : t.Inv) (happs : t.applications = s.applications)
    (hhub : t.hub = s.hub) : t.Inv ∧ (t.NoOrphans ↔ True) :=
  ⟨ht, iff_true_intro (hs.of_shrinks h ht happs (Hub.Shrinks.of_eq (by rw [hhub])))⟩

theorem step_enroll (h : s.Inv) (hs : s.NoOrphans) {c : ConnectionId} {k : Conn}
    (hk : s.conns.get c = some k) (hpump : k.pump = .enrolling)
    (ht : t = (s.setConn c { k with pump := .announcing }).register c k.peer) : t.Inv ∧ t.NoOrphans := by
  subst ht
  have ht := h.enroll hk hpump
  obtain ⟨hc, -, -⟩ := h.unannounced hk (by simp [hpump, Pump.place])
  refine ⟨ht, ht.noOrphans_iff.mpr fun c' htags => ?_⟩
  have hne : c' ≠ c := by
    rintro rfl
    exact hc htags
  have hroot := ApplicationRegistry.rootOf_register h.linked (h.owner_none hk hpump) k.peer c'
  rw [if_neg hne] at hroot
  have hold := h.noOrphans_iff.mp hs c' htags
  rwa [← hroot] at hold

/-- A connection is taken from the applications: what is left behind is its own channel. -/
theorem noOrphans_unregister (h : s.Inv) (hs : s.NoOrphans) {c : ConnectionId} (ht : t.Inv)
    (happs : t.applications = (s.applications.unregister c).2) (hhub : t.hub = s.hub) :
    t.NoOrphans ↔ ¬ s.hub.Tags c := by
  rw [ht.noOrphans_iff, hhub, happs]
  simp only [ApplicationRegistry.rootOf_unregister h.linked]
  constructor
  · intro hall htags
    have hsome := hall c htags
    rw [if_pos rfl] at hsome
    cases hsome
  · intro hc c' htags
    have hne : c' ≠ c := by
      rintro rfl
      exact hc htags
    rw [if_neg hne]
    exact h.noOrphans_iff.mp hs c' htags

theorem step_forget (h : s.Inv) (hs : s.NoOrphans) {c : ConnectionId} {k : Conn}
    (hk : s.conns.get c = some k) (hpump : k.pump = .forgetting)
    (ht : t = (s.setConn c { k with pump := .gone }).unregister c) :
    t.Inv ∧ (t.NoOrphans ↔ ¬ s.hub.Tags c) := by
  subst ht
  have hlisted : k.listed = false := h.unlisted c k hk (by simp [hpump, Pump.place])
  have hset : (s.setConn c { k with pump := .gone }).Inv := by
    refine h.setConn hk rfl rfl ?_ id ?_ fun _ => hlisted <;> simp [hpump, Pump.place]
  have ht : ((s.setConn c { k with pump := .gone }).unregister c).Inv := by
    apply hset.unregister
    intro k' hk'
    rw [conns_setConn, if_pos rfl] at hk'
    cases hk'
    exact hlisted
  exact ⟨ht, noOrphans_unregister h hs ht rfl rfl⟩

/-- A channel is attached: it is left behind when its connection is not registered any more. -/
theorem noOrphans_join (h : s.Inv) (hs : s.NoOrphans) {r : Nat} {c : ConnectionId} {app : ApplicationId}
    {hub : Hub} (hturn : (s.relays r).handling = some (c, .joining (some app)))
    (hhub : s.hub.step (.attach app c (s.relays r).audioClientId) = some hub) :
    (({ s with hub := hub } : Server).turnTo r none).NoOrphans ↔ s.RelayFirst (.turn r) := by
  have hknown := (h.handling r c _ hturn).known
  obtain ⟨k, hk, -, hplace, hpeer⟩ := hknown
  have hreg := h.registered_iff hk hplace (by rw [hpeer app rfl]; rfl)
  have htags := Hub.tags_attach hhub
  rw [(h.join hturn hhub).noOrphans_iff]
  simp only [RelayFirst, JoinsRegistered, hturn]
  constructor
  · intro hall hlane
    exact hreg.mpr (hall c ((htags c).mpr (.inr ⟨rfl, hlane⟩)))
  · intro hfirst c' ht
    rcases (htags c').mp ht with ht | ⟨rfl, hlane⟩
    · exact h.noOrphans_iff.mp hs c' ht
    · exact hreg.mp (hfirst hlane)

theorem step_turn (h : s.Inv) (hs : s.NoOrphans) {r : Nat} {c : ConnectionId} {turn : Turn}
    (hturn : (s.relays r).handling = some (c, turn)) (hstep : s.nextTurn r c turn = some t) :
    t.NoOrphans ↔ s.RelayFirst (.turn r) := by
  have ht := h.nextTurn hturn hstep
  have hfirst : (∀ app, turn ≠ .joining (some app)) → s.RelayFirst (.turn r) := by
    intro hne
    simp only [RelayFirst, JoinsRegistered, hturn]
    split
    · rename_i heq
      cases heq
      exact absurd rfl (hne _)
    · trivial
  cases turn with
  | joining app =>
    cases app with
    | none =>
      cases hstep
      exact iff_of_true (hs.of_shrinks h ht rfl (Hub.Shrinks.of_eq rfl)) (hfirst nofun)
    | some app =>
      obtain ⟨hub, hhub, heq⟩ := Option.bind_eq_some_iff.mp hstep
      cases heq
      exact noOrphans_join h hs hturn hhub
  | leaving app =>
    cases app with
    | none =>
      cases hstep
      exact iff_of_true (hs.of_shrinks h ht rfl (Hub.Shrinks.of_eq rfl)) (hfirst nofun)
    | some app =>
      obtain ⟨hub, hhub, heq⟩ := Option.bind_eq_some_iff.mp hstep
      cases heq
      exact iff_of_true (hs.of_shrinks h ht rfl (Hub.shrinks_detach hhub)) (hfirst nofun)
  | finishing =>
    obtain ⟨hub, hhub, heq⟩ := Option.bind_eq_some_iff.mp hstep
    cases heq
    refine iff_of_true (hs.of_shrinks h ht rfl ?_) (hfirst nofun)
    intro app
    rw [show (({ s with hub := hub } : Server).turnTo r (some (c, .removing))).hub = hub from rfl,
      Hub.conns_finishDetach hhub]
  | removing =>
    cases hstep
    obtain ⟨happs, hhub, -⟩ := unlist_same s c
    exact iff_of_true (hs.of_shrinks h ht happs (Hub.Shrinks.of_eq (congrArg _ hhub)))
      (hfirst nofun)
  | forgetting =>
    cases hstep
    refine iff_of_true ((noOrphans_unregister h hs ht rfl rfl).mpr ?_) (hfirst nofun)
    exact (h.handling r c _ hturn).absent rfl

/-- **One step.** -/
theorem step_noOrphans_iff (h : s.Inv) (hs : s.NoOrphans) {a : ServerAction} (hstep : s.step a = some t) :
    t.Inv ∧ (t.NoOrphans ↔ s.RelayFirst a) := by
  cases a with
  | accept c r peer =>
    simp only [step] at hstep
    split at hstep
    · contradiction
    · rename_i hc
      cases hstep
      exact h.still hs (h.accept (Option.not_isSome_iff_eq_none.mp hc) r peer) rfl rfl
  | enroll c =>
    obtain ⟨k, hk, hpump, heq⟩ := advance_eq_some.mp hstep
    obtain ⟨ht, hkeep⟩ := step_enroll h hs hk hpump heq.symm
    exact ⟨ht, iff_true_intro hkeep⟩
  | announce c =>
    obtain ⟨k, hk, hpump, heq⟩ := advance_eq_some.mp hstep
    split at heq
    · subst heq
      exact h.still hs (h.announce hk hpump) (send_applications _ _ _) (send_hub _ _ _)
    · subst heq
      refine h.still hs (h.setConn hk rfl rfl ?_ id ?_ ?_) rfl rfl <;> simp [hpump, Pump.place]
  | hangUp c =>
    obtain ⟨k, hk, hpump, heq⟩ := advance_eq_some.mp hstep
    subst heq
    refine h.still hs (h.setConn hk rfl rfl ?_ id ?_ ?_) rfl rfl <;> simp [hpump, Pump.place]
  | disconnect c =>
    obtain ⟨k, hk, hpump, heq⟩ := advance_eq_some.mp hstep
    subst heq
    have hset : (s.setConn c { k with pump := .removing }).Inv := by
      refine h.setConn hk rfl rfl ?_ id ?_ ?_ <;> simp [hpump, Pump.place]
    refine h.still hs (hset.send (k := { k with pump := .removing })
      ((conns_setConn _ _ _).trans (if_pos rfl)) rfl ?_ nofun) (send_applications _ _ _) (send_hub _ _ _)
    simp [Event.place, Pump.place]
  | remove c =>
    obtain ⟨k, hk, hpump, heq⟩ := advance_eq_some.mp hstep
    subst heq
    refine h.still hs (h.setConn hk rfl rfl ?_ ?_ ?_ ?_) rfl rfl <;> simp [hpump, Pump.place]
  | forget c =>
    obtain ⟨k, hk, hpump, heq⟩ := advance_eq_some.mp hstep
    exact step_forget h hs hk hpump heq.symm
  | destroy c =>
    cases hstep
    obtain ⟨happs, hhub, -⟩ := unlist_same s c
    exact h.still hs (h.unlist c) happs hhub
  | recv r =>
    simp only [step] at hstep
    split at hstep
    · rename_i e rest halive hidle hevents
      cases hstep
      exact h.still hs (h.recv hs hevents) rfl rfl
    · contradiction
  | turn r =>
    simp only [step] at hstep
    split at hstep
    · rename_i c turn hturn
      exact ⟨h.nextTurn hturn hstep, step_turn h hs hturn hstep⟩
    · contradiction
  | stop r =>
    simp only [step] at hstep
    split at hstep
    · contradiction
    · cases hstep
      refine h.still hs (h.setRelay r rfl ?_ List.Pairwise.nil ?_ ?_) rfl rfl <;> simp
  | hub a =>
    simp only [step] at hstep
    split at hstep
    · rename_i ha
      obtain ⟨hub, hhub, rfl⟩ := Option.map_eq_some_iff.mp hstep
      have hshrinks := Hub.shrinks_surrounding ha hhub
      have ht := h.shrink hshrinks
      exact ⟨ht, iff_true_intro (hs.of_shrinks h ht rfl hshrinks)⟩
    · contradiction

theorem inv_init (lanes : Lanes) (perApp : Nat → Bool) (audioClientId : Nat → ConnectionId) :
    (init lanes perApp audioClientId).Inv where
  linked := ApplicationRegistry.linked_new
  rooted := nofun
  listed := nofun
  unlisted := nofun
  queued := nofun
  order := fun _ => List.Pairwise.nil
  handling := nofun
  early := nofun
  tagged := nofun
  single := fun _ => List.nodup_nil

/-- **No audio channel outlives its X11 connection**, in any run of listeners, relay tasks, session
    destructions and captures, if and only if no listener unregisters its connection before the relay has
    taken the channel away, and none is attached after that. -/
theorem no_orphans_iff (lanes : Lanes) (perApp : Nat → Bool) (audioClientId : Nat → ConnectionId)
    (as : List ServerAction) (s : Server) (hr : run step (init lanes perApp audioClientId) as = some s) :
    (∀ pre t, pre <+: as → run step (init lanes perApp audioClientId) pre = some t → t.NoOrphans) ↔
      Meets step RelayFirst (init lanes perApp audioClientId) as := by
  have hinit := inv_init lanes perApp audioClientId
  exact states_iff_meets_of_inv (fun _ _ _ hi hs h => step_noOrphans_iff hi hs h) hinit
    (hinit.noOrphans_iff.mpr nofun) hr

/-- An application with a known root connects, its channel is attached, and it leaves. -/
def comesAndGoes : List ServerAction :=
  [.hub (.subscribe ⟨77⟩ 0), .accept ⟨1⟩ 0 (some ⟨5⟩), .enroll ⟨1⟩, .announce ⟨1⟩, .recv 0, .turn 0,
    .hangUp ⟨1⟩, .disconnect ⟨1⟩]

/-- The relay takes the event before the listener unregisters the connection. -/
def relayFirst : List ServerAction :=
  comesAndGoes ++ [.recv 0, .turn 0, .turn 0, .turn 0, .turn 0, .remove ⟨1⟩, .forget ⟨1⟩]

/-- The listener is there first, and the relay finds no application. -/
def listenerFirst : List ServerAction :=
  comesAndGoes ++ [.remove ⟨1⟩, .forget ⟨1⟩, .recv 0, .turn 0, .turn 0, .turn 0]

/-- Every lane is open and empty, and every relay task has the tier. -/
def start : Server := init (fun _ => ⟨[], true, []⟩) (fun _ => true) fun _ => ⟨77⟩

theorem no_orphans_iff_relay_first : (run step start relayFirst).isSome = true ∧
    ∀ pre t, pre <+: relayFirst → run step start pre = some t → t.NoOrphans := by
  have hrun : (run step start relayFirst).isSome = true := by decide +kernel
  obtain ⟨s, hs⟩ := Option.isSome_iff_exists.mp hrun
  exact ⟨hrun, (no_orphans_iff _ _ _ relayFirst s hs).mpr (by decide +kernel)⟩

/-- The channel is in the hub, the connection is in no map, and the relay has handled its end. -/
theorem listener_first_leaves_channel :
    ¬ ∀ (lanes : Lanes) (perApp : Nat → Bool) (audioClientId : Nat → ConnectionId)
      (as : List ServerAction) (s : Server),
      run step (init lanes perApp audioClientId) as = some s → s.NoOrphans := by
  intro h
  have hrun : ∃ s ∈ run step start listenerFirst, s.hub.Tags ⟨1⟩ ∧ ¬ s.Registered ⟨1⟩ ∧
      (s.applications.rootOf ⟨1⟩).isSome = false := by decide +kernel
  obtain ⟨s, hs, htags, hreg, hroot⟩ := hrun
  rcases h _ _ _ listenerFirst s hs ⟨1⟩ htags with hbad | ⟨-, hbad⟩
  · exact hreg hbad
  · rw [hroot] at hbad
    cases hbad

end Server

end RemoteX11.Audio
