/-
  The active X11 connections of the server (`x11_listener.rs`, `handle_x11_event` of
  `relay/connection.rs`), which its relay tasks count with one counter.

  The parties are the listener's task of each connection and the relay tasks, each with its queue of
  events. `Connected` is counted as soon as it is taken, `Disconnected` after the connection is
  unregistered, some awaits later. A relay task ends in any state, and what is in its queue is lost.
  The registration itself, the data and the flow control events are left out; `counted` is the history of
  the connections that have been counted and not yet counted off.
-/
import RemoteX11.Client.Opens
import RemoteX11.Audio.Attachments

namespace RemoteX11.Server.Opens

open RemoteX11.Lib RemoteX11.Protocol RemoteX11.Stats
open RemoteX11.Audio (Event)

/-! ## The model -/

/-- Where `handle_x11_connection` stands. -/
inductive Stage where
  /-- registered; `Connected` is sent next -/
  | announcing
  /-- both legs are running -/
  | pumping
  /-- a leg has ended; `Disconnected` is sent next -/
  | ending
  | gone
  deriving DecidableEq, Repr

structure Conn where
  /-- the relay task behind its event channel -/
  relay : Nat
  stage : Stage
  deriving DecidableEq, Repr

/-- The other event of the connection. -/
def twin : Event → Event
  | .connected c => .disconnected c
  | .disconnected c => .connected c

def isConnected : Event → Bool
  | .connected _ => true
  | .disconnected _ => false

structure Relay where
  alive : Bool
  x11Events : List Event
  handling : Option Event
  deriving DecidableEq, Repr

structure Listener where
  stats : ActiveConnections
  conns : Table ConnectionId Conn
  relays : Nat → Relay
  counted : List ConnectionId

inductive Action where
  /-- an application is registered -/
  | accept (conn : ConnectionId) (relay : Nat)
  /-- `Connected` is sent -/
  | announce (conn : ConnectionId)
  /-- a leg ends -/
  | hangUp (conn : ConnectionId)
  /-- `Disconnected` is sent -/
  | disconnect (conn : ConnectionId)
  /-- the relay task takes an event, -/
  | recv (relay : Nat)
  /-- and is done with it -/
  | handled (relay : Nat)
  /-- the relay task is over -/
  | stop (relay : Nat)
  deriving DecidableEq, Repr

namespace Listener

def setConn (s : Listener) (c : ConnectionId) (k : Conn) : Listener := { s with conns := s.conns.put c k }

def setRelay (s : Listener) (r : Nat) (relay : Relay) : Listener :=
  { s with relays := fun i => if i = r then relay else s.relays i }

/-- An event for the relay task, lost when it is over. -/
def send (s : Listener) (r : Nat) (e : Event) : Listener :=
  if (s.relays r).alive then
    s.setRelay r { s.relays r with x11Events := (s.relays r).x11Events ++ [e] }
  else s

/-- The task of the connection goes on from `stage`. -/
def advance (s : Listener) (c : ConnectionId) (stage : Stage) (next : Conn → Listener) : Option Listener :=
  match s.conns.get c with
  | some k => if k.stage = stage then some (next k) else none
  | none => none

/-- The first thing that is done about an event. -/
def count (s : Listener) : Event → Listener
  | .connected c => { s with stats := s.stats.inc, counted := c :: s.counted }
  | .disconnected _ => s

/-- The last thing. -/
def countOff (s : Listener) : Event → Listener
  | .connected _ => s
  | .disconnected c => { s with stats := s.stats.dec, counted := s.counted.erase c }

def step (s : Listener) : Action → Option Listener
  | .accept c r => if (s.conns.get c).isSome then none else some (s.setConn c ⟨r, .announcing⟩)
  | .announce c => s.advance c .announcing fun k =>
    if (s.relays k.relay).alive then (s.setConn c { k with stage := .pumping }).send k.relay (.connected c)
    else s.setConn c { k with stage := .gone }
  | .hangUp c => s.advance c .pumping fun k => s.setConn c { k with stage := .ending }
  | .disconnect c => s.advance c .ending fun k =>
    (s.setConn c { k with stage := .gone }).send k.relay (.disconnected c)
  | .recv r =>
    let relay := s.relays r
    match relay.handling, relay.x11Events with
    | none, e :: rest => some ((s.setRelay r { relay with x11Events := rest, handling := some e }).count e)
    | _, _ => none
  | .handled r =>
    let relay := s.relays r
    match relay.handling with
    | some e => some ((s.setRelay r { relay with handling := none }).countOff e)
    | none => none
  | .stop r => some (s.setRelay r ⟨false, [], none⟩)

/-- Every relay task is there, with nothing to do. -/
def init : Listener := ⟨⟨0, 0⟩, .empty, fun _ => ⟨true, [], none⟩, []⟩

/-- The connections whose legs are running. -/
def openIds (s : Listener) : List ConnectionId :=
  (s.conns.entries.filter fun e => e.2.stage = .pumping).map Prod.fst

/-- No event is waiting or handled, and no connection is on its way in or out. -/
def Quiet (s : Listener) : Prop :=
  (∀ r, (s.relays r).x11Events = [] ∧ (s.relays r).handling = none) ∧
    ∀ c k, s.conns.get c = some k → k.stage = .pumping ∨ k.stage = .gone

/-- The counter is exact when nothing is under way, and no decrement has met zero. -/
def Exact (s : Listener) : Prop :=
  (s.Quiet → s.stats.value.toNat = s.openIds.length) ∧ s.stats.underflows = 0

/-- Every connection that is counted is counted off: a relay task ends with no `Disconnected` in its hands
    and with both events of a connection in its queue or none, and not before the connections it has
    counted. -/
def CountedOff (s : Listener) : Action → Prop
  | .recv r => (s.relays r).x11Events.head?.any isConnected = true → s.stats.value.toNat + 1 < 2 ^ 32
  | .stop r => (∀ e ∈ (s.relays r).x11Events, twin e ∈ (s.relays r).x11Events) ∧
    ∀ e ∈ (s.relays r).handling, isConnected e = true
  | .disconnect c => ∀ k ∈ s.conns.get c, (s.relays k.relay).alive = true ∨ c ∉ s.counted
  | _ => True

instance (s : Listener) : (a : Action) → Decidable (s.CountedOff a)
  | .recv _ => inferInstanceAs (Decidable (_ = true → _ < _))
  | .stop r => inferInstanceAs (Decidable ((∀ e ∈ (s.relays r).x11Events, twin e ∈ (s.relays r).x11Events) ∧
      ∀ e ∈ (s.relays r).handling, isConnected e = true))
  | .disconnect c =>
    inferInstanceAs (Decidable (∀ k ∈ s.conns.get c, (s.relays k.relay).alive = true ∨ c ∉ s.counted))
  | .accept _ _ | .announce _ | .hangUp _ | .handled _ => isTrue trivial

/-! ## The invariant -/

/-- The first event of a connection is its `Connected`, the second its `Disconnected`. -/
def Before (e e' : Event) : Prop := e.conn = e'.conn → isConnected e = true ∧ isConnected e' = false

structure Inv (s : Listener) : Prop where
  counts : s.stats.Counts s.counted.length
  nodup : s.counted.Nodup
  /-- an event comes from its connection, which has gone on -/
  queued : ∀ r, ∀ e ∈ (s.relays r).x11Events, ∃ k, s.conns.get e.conn = some k ∧ k.relay = r ∧
    k.stage ≠ .announcing ∧ (isConnected e = false → k.stage = .gone)
  order : ∀ r, (s.relays r).x11Events.Pairwise Before
  /-- a connection is counted when its `Connected` is taken, -/
  waiting : ∀ r c, .connected c ∈ (s.relays r).x11Events → c ∉ s.counted
  /-- until its `Disconnected` has been handled -/
  leaving : ∀ c ∈ s.counted, ∃ k, s.conns.get c = some k ∧ k.stage ≠ .announcing ∧
    (k.stage = .gone → .disconnected c ∈ (s.relays k.relay).x11Events ∨
      (s.relays k.relay).handling = some (.disconnected c))
  running : ∀ c k, s.conns.get c = some k → k.stage = .pumping ∨ k.stage = .ending →
    c ∈ s.counted ∨ .connected c ∈ (s.relays k.relay).x11Events
  ended : ∀ r c, .disconnected c ∈ (s.relays r).x11Events →
    c ∈ s.counted ∨ .connected c ∈ (s.relays r).x11Events
  handling : ∀ r c, (s.relays r).handling = some (.disconnected c) →
    c ∈ s.counted ∧ (∃ k, s.conns.get c = some k ∧ k.relay = r ∧ k.stage = .gone) ∧
      ∀ e ∈ (s.relays r).x11Events, e.conn ≠ c
  /-- what is sent to a relay task that has `Connected` in its queue arrives -/
  paired : ∀ r c k, .connected c ∈ (s.relays r).x11Events → s.conns.get c = some k → k.stage = .gone →
    .disconnected c ∈ (s.relays r).x11Events
  dead : ∀ r, (s.relays r).alive = false → (s.relays r).x11Events = []

variable {s t : Listener}

theorem inv_init : init.Inv where
  counts := ⟨rfl, rfl⟩
  nodup := List.nodup_nil
  queued := nofun
  order := fun _ => List.Pairwise.nil
  waiting := nofun
  leaving := nofun
  running := nofun
  ended := nofun
  handling := nofun
  paired := nofun
  dead := nofun

theorem mem_openIds {c : ConnectionId} :
    c ∈ s.openIds ↔ ∃ k, s.conns.get c = some k ∧ k.stage = .pumping := by
  unfold openIds
  rw [List.mem_map]
  constructor
  · rintro ⟨⟨c', k⟩, hmem, rfl⟩
    obtain ⟨hmem, hstage⟩ := List.mem_filter.mp hmem
    exact ⟨k, Table.mem_entries.mp hmem, by simpa using hstage⟩
  · rintro ⟨k, hk, hstage⟩
    exact ⟨(c, k), List.mem_filter.mpr ⟨Table.mem_entries.mpr hk, by simpa using hstage⟩, rfl⟩

/-- Where nothing is under way the counted connections are the open ones. -/
theorem Inv.exact (h : s.Inv) : s.Exact := by
  refine ⟨?_, h.counts.2⟩
  rintro ⟨hrelays, hconns⟩
  have hopen : s.openIds.Nodup := s.conns.nodup.sublist (List.filter_sublist.map Prod.fst)
  have hperm : s.counted.Perm s.openIds := by
    rw [List.perm_ext_iff_of_nodup h.nodup hopen]
    intro c
    rw [mem_openIds]
    constructor
    · intro hc
      obtain ⟨k, hk, -, hgone⟩ := h.leaving c hc
      refine ⟨k, hk, (hconns c k hk).resolve_right fun hstage => ?_⟩
      rcases hgone hstage with hmem | hhandling
      · rw [(hrelays k.relay).1] at hmem
        cases hmem
      · rw [(hrelays k.relay).2] at hhandling
        cases hhandling
    · rintro ⟨k, hk, hstage⟩
      rcases h.running c k hk (.inl hstage) with hc | hmem
      · exact hc
      · rw [(hrelays k.relay).1] at hmem
        cases hmem
  rw [h.counts.1, hperm.length_eq]

/-- What is waiting about a connection, in the queue of its own relay task. -/
theorem Inv.queued_at (h : s.Inv) {c : ConnectionId} {k : Conn} (hk : s.conns.get c = some k) {r : Nat}
    {e : Event} (he : e ∈ (s.relays r).x11Events) (hc : e.conn = c) :
    r = k.relay ∧ k.stage ≠ .announcing ∧ (isConnected e = false → k.stage = .gone) := by
  obtain ⟨k', hk', hr, hann, hgone⟩ := h.queued r e he
  rw [hc] at hk'
  obtain rfl := Option.some.inj (hk.symm.trans hk')
  exact ⟨hr.symm, hann, hgone⟩

/-! ## Steps of a connection -/

theorem conns_setConn (c c' : ConnectionId) (k : Conn) :
    (s.setConn c k).conns.get c' = if c' = c then some k else s.conns.get c' :=
  Table.get_put _ _ _ _

/-- Every connection is there still, with its relay task, and not further back. -/
def Extends (s t : Listener) : Prop :=
  ∀ c k, s.conns.get c = some k → ∃ k', t.conns.get c = some k' ∧ k'.relay = k.relay ∧
    (k.stage ≠ .announcing → k'.stage ≠ .announcing) ∧ (k.stage = .gone → k'.stage = .gone)

theorem extends_setConn {c : ConnectionId} {k' : Conn}
    (hold : ∀ k, s.conns.get c = some k → k'.relay = k.relay ∧
      (k.stage ≠ .announcing → k'.stage ≠ .announcing) ∧ (k.stage = .gone → k'.stage = .gone)) :
    s.Extends (s.setConn c k') := by
  intro c₀ k₀ hk₀
  rw [conns_setConn]
  by_cases hc : c₀ = c
  · subst hc
    exact ⟨k', if_pos rfl, hold k₀ hk₀⟩
  · exact ⟨k₀, (if_neg hc).trans hk₀, rfl, id, id⟩

theorem queued_mono (hext : s.Extends t) {r : Nat} {e : Event}
    (h : ∃ k, s.conns.get e.conn = some k ∧ k.relay = r ∧ k.stage ≠ .announcing ∧
      (isConnected e = false → k.stage = .gone)) :
    ∃ k, t.conns.get e.conn = some k ∧ k.relay = r ∧ k.stage ≠ .announcing ∧
      (isConnected e = false → k.stage = .gone) := by
  obtain ⟨k, hk, hr, hann, hgone⟩ := h
  obtain ⟨k', hk', hr', hann', hgone'⟩ := hext _ k hk
  exact ⟨k', hk', hr'.trans hr, hann' hann, fun he => hgone' (hgone he)⟩

/-- A connection that moves on without an event. -/
theorem Inv.setConn (h : s.Inv) {c : ConnectionId} {k' : Conn}
    (hold : ∀ k, s.conns.get c = some k → k'.relay = k.relay ∧
      (k.stage ≠ .announcing → k'.stage ≠ .announcing) ∧ (k.stage = .gone → k'.stage = .gone))
    (hleave : c ∈ s.counted → k'.stage ≠ .gone)
    (hrun : k'.stage = .pumping ∨ k'.stage = .ending →
      ∃ k, s.conns.get c = some k ∧ (k.stage = .pumping ∨ k.stage = .ending))
    (hnone : k'.stage = .gone → ∀ r, .connected c ∉ (s.relays r).x11Events) : (s.setConn c k').Inv := by
  have hext := extends_setConn hold
  refine ⟨h.counts, h.nodup, fun r e he => queued_mono hext (h.queued r e he), h.order, h.waiting, ?_, ?_,
    h.ended, ?_, ?_, h.dead⟩
  · intro c₀ hc₀
    obtain ⟨k₀, hk₀, hann, hgone⟩ := h.leaving c₀ hc₀
    rw [conns_setConn]
    by_cases hc : c₀ = c
    · subst hc
      exact ⟨k', if_pos rfl, (hold k₀ hk₀).2.1 hann, fun hg => absurd hg (hleave hc₀)⟩
    · exact ⟨k₀, (if_neg hc).trans hk₀, hann, hgone⟩
  · intro c₀ k₀ hk₀ hstage
    rw [conns_setConn] at hk₀
    split at hk₀
    · rename_i hc
      cases hk₀
      subst hc
      obtain ⟨k, hk, hrunning⟩ := hrun hstage
      rw [(hold k hk).1]
      exact h.running c₀ k hk hrunning
    · exact h.running c₀ k₀ hk₀ hstage
  · intro r c₀ hc₀
    obtain ⟨hcounted, ⟨k₀, hk₀, hr, hgone⟩, hnone⟩ := h.handling r c₀ hc₀
    obtain ⟨k₁, hk₁, hr₁, -, hgone₁⟩ := hext c₀ k₀ hk₀
    exact ⟨hcounted, ⟨k₁, hk₁, hr₁.trans hr, hgone₁ hgone⟩, hnone⟩
  · intro r c₀ k₀ hmem hk₀ hg
    rw [conns_setConn] at hk₀
    split at hk₀
    · rename_i hc
      cases hk₀
      subst hc
      exact absurd hmem (hnone hg r)
    · exact h.paired r c₀ k₀ hmem hk₀ hg

theorem relays_setRelay (s : Listener) (r i : Nat) (relay : Relay) :
    (s.setRelay r relay).relays i = if i = r then relay else s.relays i := rfl

theorem relays_send {r : Nat} {e : Event} (halive : (s.relays r).alive = true) (i : Nat) :
    ((s.send r e).relays i).handling = (s.relays i).handling ∧
      ((s.send r e).relays i).x11Events =
        (if i = r then (s.relays r).x11Events ++ [e] else (s.relays i).x11Events) ∧
      ((s.send r e).relays i).alive = (s.relays i).alive := by
  unfold send
  rw [if_pos halive, relays_setRelay]
  by_cases hi : i = r
  · subst hi
    simp
  · simp [hi]

theorem mem_send {r : Nat} {e a : Event} (halive : (s.relays r).alive = true) (i : Nat) :
    a ∈ ((s.send r e).relays i).x11Events ↔ a ∈ (s.relays i).x11Events ∨ i = r ∧ a = e := by
  rw [(relays_send halive i).2.1]
  by_cases hi : i = r
  · subst hi
    simp
  · simp [hi]

@[simp] theorem send_conns (s : Listener) (r : Nat) (e : Event) : (s.send r e).conns = s.conns := by
  unfold send
  split <;> rfl

@[simp] theorem send_counted (s : Listener) (r : Nat) (e : Event) : (s.send r e).counted = s.counted := by
  unfold send
  split <;> rfl

@[simp] theorem send_stats (s : Listener) (r : Nat) (e : Event) : (s.send r e).stats = s.stats := by
  unfold send
  split <;> rfl

/-- A connection that moves on with an event. -/
theorem Inv.sendFrom (h : s.Inv) (e : Event) (k' : Conn) {k : Conn} (hk : s.conns.get e.conn = some k)
    (halive : (s.relays k.relay).alive = true) (hrelay : k'.relay = k.relay)
    (hstage : k.stage ≠ .gone) (hann : k'.stage ≠ .announcing)
    (hgone : k'.stage = .gone ↔ isConnected e = false)
    (hbefore : ∀ a ∈ (s.relays k.relay).x11Events, Before a e)
    (hfresh : isConnected e = true → e.conn ∉ s.counted)
    (hend : isConnected e = false → e.conn ∈ s.counted ∨
      .connected e.conn ∈ (s.relays k.relay).x11Events) :
    ((s.setConn e.conn k').send k.relay e).Inv := by
  have hrelays := relays_send (s := s.setConn e.conn k') (e := e) halive
  have hext : s.Extends (s.setConn e.conn k') := by
    apply extends_setConn
    intro k₀ hk₀
    obtain rfl := Option.some.inj (hk.symm.trans hk₀)
    exact ⟨hrelay, fun _ => hann, fun hg => absurd hg hstage⟩
  have hqueue : ∀ i a, a ∈ (((s.setConn e.conn k').send k.relay e).relays i).x11Events ↔
      a ∈ (s.relays i).x11Events ∨ i = k.relay ∧ a = e :=
    fun i _ => mem_send (s := s.setConn e.conn k') halive i
  have hkeep : ∀ i a, a ∈ (s.relays i).x11Events →
      a ∈ (((s.setConn e.conn k').send k.relay e).relays i).x11Events :=
    fun i a ha => (hqueue i a).mpr (.inl ha)
  have hlast : e ∈ (((s.setConn e.conn k').send k.relay e).relays k.relay).x11Events :=
    (hqueue _ _).mpr (.inr ⟨rfl, rfl⟩)
  constructor
  · rw [send_stats, send_counted]
    exact h.counts
  · rw [send_counted]
    exact h.nodup
  · intro i a ha
    rw [send_conns]
    rcases (hqueue i a).mp ha with ha | ⟨rfl, rfl⟩
    · exact queued_mono hext (h.queued i a ha)
    · exact ⟨k', (conns_setConn _ _ _).trans (if_pos rfl), hrelay, hann, hgone.mpr⟩
  · intro i
    rw [(hrelays i).2.1]
    split
    · refine List.pairwise_append.mpr ⟨h.order k.relay, List.pairwise_singleton _ _, ?_⟩
      intro a ha b hb
      rw [List.mem_singleton.mp hb]
      exact hbefore a ha
    · exact h.order i
  · intro i c hmem
    rw [send_counted]
    rcases (hqueue i _).mp hmem with hmem | ⟨-, heq⟩
    · exact h.waiting i c hmem
    · subst heq
      exact hfresh rfl
  · intro c hc
    rw [send_counted] at hc
    obtain ⟨k₀, hk₀, hann₀, hgone₀⟩ := h.leaving c hc
    rw [send_conns, conns_setConn]
    by_cases heq : c = e.conn
    · refine ⟨k', if_pos heq, hann, fun hg => .inl ?_⟩
      rw [hrelay]
      cases e with
      | connected c' => cases hgone.mp hg
      | disconnected c' =>
        rw [show c = c' from heq]
        exact hlast
    · refine ⟨k₀, (if_neg heq).trans hk₀, hann₀, fun hg => ?_⟩
      rw [(hrelays _).1]
      exact (hgone₀ hg).imp_left (hkeep _ _)
  · intro c k₀ hk₀ hstage₀
    rw [send_counted]
    rw [send_conns, conns_setConn] at hk₀
    split at hk₀
    · rename_i heq
      cases hk₀
      rw [hrelay]
      cases e with
      | connected c' =>
        rw [show c = c' from heq]
        exact .inr hlast
      | disconnected c' =>
        rw [hgone.mpr rfl] at hstage₀
        rcases hstage₀ with hbad | hbad <;> cases hbad
    · exact (h.running c k₀ hk₀ hstage₀).imp_right (hkeep _ _)
  · intro i c hmem
    rw [send_counted]
    rcases (hqueue i _).mp hmem with hmem | ⟨rfl, heq⟩
    · exact (h.ended i c hmem).imp_right (hkeep i _)
    · subst heq
      exact (hend rfl).imp_right (hkeep _ _)
  · intro i c hc
    rw [(hrelays i).1] at hc
    obtain ⟨hcounted, ⟨k₀, hk₀, hr, hgone₀⟩, hnone⟩ := h.handling i c hc
    have hne : e.conn ≠ c := by
      rintro rfl
      obtain rfl := Option.some.inj (hk.symm.trans hk₀)
      exact hstage hgone₀
    rw [send_counted, send_conns, conns_setConn, if_neg hne.symm]
    refine ⟨hcounted, ⟨k₀, hk₀, hr, hgone₀⟩, ?_⟩
    intro a ha
    rcases (hqueue i a).mp ha with ha | ⟨-, rfl⟩
    · exact hnone a ha
    · exact hne
  · intro i c k₀ hmem hk₀ hg
    rw [send_conns, conns_setConn] at hk₀
    split at hk₀
    · rename_i heq
      cases hk₀
      cases e with
      | connected c' => cases hgone.mp hg
      | disconnected c' =>
        obtain rfl : c = c' := heq
        rcases (hqueue i _).mp hmem with hmem | ⟨-, hbad⟩
        · obtain ⟨rfl, -⟩ := h.queued_at hk hmem rfl
          exact hlast
        · cases hbad
    · rename_i heq
      rcases (hqueue i _).mp hmem with hmem | ⟨-, rfl⟩
      · exact hkeep i _ (h.paired i c k₀ hmem hk₀ hg)
      · exact absurd rfl heq
  · intro i hi
    rw [(hrelays i).2.2] at hi
    rw [(hrelays i).2.1, if_neg]
    · exact h.dead i hi
    · rintro rfl
      exact absurd (halive.symm.trans hi) (by decide)

/-! ## Steps of a relay task -/

/-- What a step of the relay task of a connection leaves to be shown about that connection. -/
theorem Inv.relay (h : s.Inv) {c : ConnectionId} {k : Conn} (hk : s.conns.get c = some k)
    {relay : Relay} {stats : ActiveConnections} {counted : List ConnectionId}
    (hcounts : stats.Counts counted.length) (hnodup : counted.Nodup)
    (halive : relay.alive = (s.relays k.relay).alive)
    (hsub : relay.x11Events.Sublist (s.relays k.relay).x11Events)
    (hothers : ∀ a ∈ (s.relays k.relay).x11Events, a.conn ≠ c → a ∈ relay.x11Events)
    (hsame : ∀ c₀, c₀ ≠ c → (c₀ ∈ counted ↔ c₀ ∈ s.counted))
    (hidle : ∀ c₀, c₀ ≠ c → (s.relays k.relay).handling ≠ some (.disconnected c₀) ∧
      relay.handling ≠ some (.disconnected c₀))
    (hwaiting : .connected c ∈ relay.x11Events → c ∉ counted)
    (hleaving : c ∈ counted → k.stage ≠ .announcing ∧
      (k.stage = .gone → .disconnected c ∈ relay.x11Events ∨ relay.handling = some (.disconnected c)))
    (hrunning : k.stage = .pumping ∨ k.stage = .ending → c ∈ counted ∨ .connected c ∈ relay.x11Events)
    (hended : .disconnected c ∈ relay.x11Events → c ∈ counted ∨ .connected c ∈ relay.x11Events)
    (hhandling : relay.handling = some (.disconnected c) →
      c ∈ counted ∧ k.stage = .gone ∧ ∀ e ∈ relay.x11Events, e.conn ≠ c)
    (hpaired : .connected c ∈ relay.x11Events → k.stage = .gone → .disconnected c ∈ relay.x11Events) :
    ({ s.setRelay k.relay relay with stats := stats, counted := counted } : Listener).Inv := by
  -- the events of the connection are in no other queue
  have hhome : ∀ i, ∀ e ∈ (s.relays i).x11Events, e.conn = c → i = k.relay :=
    fun i e he hc => (h.queued_at hk he hc).1
  have hold : ∀ i, ∀ e ∈ ((s.setRelay k.relay relay).relays i).x11Events, e ∈ (s.relays i).x11Events := by
    intro i e he
    rw [relays_setRelay] at he
    split at he
    · rename_i hi
      exact hi ▸ hsub.subset he
    · exact he
  have hkeep : ∀ i, ∀ e ∈ (s.relays i).x11Events, e.conn ≠ c →
      e ∈ ((s.setRelay k.relay relay).relays i).x11Events := by
    intro i e he hne
    rw [relays_setRelay]
    split
    · rename_i hi
      exact hothers e (hi ▸ he) hne
    · exact he
  -- and neither is it in the hands of another task
  have hown : ∀ i, (s.relays i).handling = some (.disconnected c) → i = k.relay := by
    intro i hi
    obtain ⟨-, ⟨k', hk', hr, -⟩, -⟩ := h.handling i c hi
    obtain rfl := Option.some.inj (hk.symm.trans hk')
    exact hr.symm
  have hmine : (s.setRelay k.relay relay).relays k.relay = relay := if_pos rfl
  refine ⟨hcounts, hnodup, fun i e he => h.queued i e (hold i e he), ?_, ?_, ?_, ?_, ?_, ?_, ?_, ?_⟩
  · intro i
    show List.Pairwise Before ((s.setRelay k.relay relay).relays i).x11Events
    rw [relays_setRelay]
    split
    · exact (h.order k.relay).sublist hsub
    · exact h.order i
  · intro i c₀ hmem
    by_cases hc : c₀ = c
    · subst hc
      have hi := hhome i _ (hold i _ hmem) rfl
      subst hi
      exact hwaiting (hmine ▸ hmem)
    · exact fun hbad => h.waiting i c₀ (hold i _ hmem) ((hsame c₀ hc).mp hbad)
  · intro c₀ hc₀
    by_cases hc : c₀ = c
    · subst hc
      refine ⟨k, hk, (hleaving hc₀).1, fun hg => ?_⟩
      show _ ∈ ((s.setRelay k.relay relay).relays k.relay).x11Events ∨
        ((s.setRelay k.relay relay).relays k.relay).handling = _
      rw [hmine]
      exact (hleaving hc₀).2 hg
    · obtain ⟨k₀, hk₀, hann, hgone⟩ := h.leaving c₀ ((hsame c₀ hc).mp hc₀)
      refine ⟨k₀, hk₀, hann, fun hg => (hgone hg).imp (fun hm => hkeep _ _ hm hc) fun ht => ?_⟩
      show ((s.setRelay k.relay relay).relays k₀.relay).handling = _
      rw [relays_setRelay, if_neg]
      · exact ht
      · intro heq
        exact (hidle c₀ hc).1 (heq ▸ ht)
  · intro c₀ k₀ hk₀ hstage
    by_cases hc : c₀ = c
    · subst hc
      obtain rfl := Option.some.inj (hk.symm.trans hk₀)
      show _ ∨ _ ∈ ((s.setRelay k.relay relay).relays k.relay).x11Events
      rw [hmine]
      exact hrunning hstage
    · exact (h.running c₀ k₀ hk₀ hstage).imp (hsame c₀ hc).mpr fun hm => hkeep _ _ hm hc
  · intro i c₀ hmem
    by_cases hc : c₀ = c
    · subst hc
      have hi := hhome i _ (hold i _ hmem) rfl
      subst hi
      show _ ∨ _ ∈ ((s.setRelay k.relay relay).relays k.relay).x11Events
      rw [hmine]
      exact hended (hmine ▸ hmem)
    · exact (h.ended i c₀ (hold i _ hmem)).imp (hsame c₀ hc).mpr fun hm => hkeep _ _ hm hc
  · intro i c₀ hc₀
    have hti : (if i = k.relay then relay else s.relays i).handling = some (.disconnected c₀) := hc₀
    split at hti
    · rename_i hi
      subst hi
      have hc : c₀ = c := by
        by_contra hne
        exact (hidle c₀ hne).2 hti
      subst hc
      obtain ⟨hcounted, hgone, hnone⟩ := hhandling hti
      exact ⟨hcounted, ⟨k, hk, rfl, hgone⟩, fun e he => hnone e (hmine ▸ he)⟩
    · rename_i hi
      obtain ⟨hcounted, hknown, hnone⟩ := h.handling i c₀ hti
      have hc : c₀ ≠ c := by
        rintro rfl
        exact hi (hown i hti)
      exact ⟨(hsame c₀ hc).mpr hcounted, hknown, fun e he => hnone e (hold i e he)⟩
  · intro i c₀ k₀ hmem hk₀ hg
    by_cases hc : c₀ = c
    · subst hc
      obtain rfl := Option.some.inj (hk.symm.trans hk₀)
      have hi := hhome i _ (hold i _ hmem) rfl
      subst hi
      show _ ∈ ((s.setRelay k.relay relay).relays k.relay).x11Events
      rw [hmine]
      exact hpaired (hmine ▸ hmem) hg
    · exact hkeep i _ (h.paired i c₀ k₀ (hold i _ hmem) hk₀ hg) hc
  · intro i hi
    have hdead : (s.relays i).alive = false := by
      change (if i = k.relay then relay else s.relays i).alive = false at hi
      split at hi
      · rename_i heq
        rw [heq, ← halive]
        exact hi
      · exact hi
    exact List.eq_nil_iff_forall_not_mem.mpr fun e he => by
      have hmem := hold i e he
      rw [h.dead i hdead] at hmem
      cases hmem

/-- An event is taken; a `Connected` is counted. -/
theorem Inv.recv (h : s.Inv) {r : Nat} {e : Event} {rest : List Event}
    (hevents : (s.relays r).x11Events = e :: rest) (hidle : (s.relays r).handling = none)
    (hmax : isConnected e = true → s.stats.value.toNat + 1 < 2 ^ 32) :
    ((s.setRelay r { s.relays r with x11Events := rest, handling := some e }).count e).Inv := by
  have horder := h.order r
  rw [hevents, List.pairwise_cons] at horder
  obtain ⟨k, hk, rfl, hann, hgone⟩ := h.queued r e (hevents ▸ List.mem_cons_self)
  -- a later event of the connection is its `Disconnected`, after a `Connected`
  have hlater : ∀ a ∈ rest, a.conn = e.conn → isConnected e = true ∧ isConnected a = false :=
    fun a ha hac => horder.1 a ha hac.symm
  have hsub : rest.Sublist (s.relays k.relay).x11Events := by
    rw [hevents]
    exact List.sublist_cons_self e rest
  have hothers : ∀ a ∈ (s.relays k.relay).x11Events, a.conn ≠ e.conn → a ∈ rest := by
    intro a ha hne
    rw [hevents] at ha
    exact (List.mem_cons.mp ha).resolve_left fun heq => hne (congrArg _ heq)
  cases e with
  | connected c =>
    have hc : c ∉ s.counted := h.waiting _ c (hevents ▸ List.mem_cons_self)
    have hnot : .connected c ∉ rest := fun hm => by
      have := (hlater _ hm rfl).2
      cases this
    refine h.relay hk (h.counts.inc (h.counts.1 ▸ hmax rfl)) (List.nodup_cons.mpr ⟨hc, h.nodup⟩)
      rfl hsub hothers ?_ ?_ (fun hm => absurd hm hnot) ?_ (fun _ => .inl List.mem_cons_self)
      (fun _ => .inl List.mem_cons_self) nofun (fun hm => absurd hm hnot)
    · intro c₀ hne
      exact ⟨fun hm => (List.mem_cons.mp hm).resolve_left hne, List.mem_cons_of_mem _⟩
    · exact fun c₀ _ => ⟨by rw [hidle]; nofun, nofun⟩
    · refine fun _ => ⟨hann, fun hg => .inl ?_⟩
      have hpair := h.paired _ c k (hevents ▸ List.mem_cons_self) hk hg
      rw [hevents] at hpair
      exact (List.mem_cons.mp hpair).resolve_left nofun
  | disconnected c =>
    have hnone : ∀ a ∈ rest, a.conn ≠ c := by
      intro a ha hac
      cases (hlater a ha hac).1
    have hc : c ∈ s.counted := by
      rcases h.ended _ c (hevents ▸ List.mem_cons_self) with hc | hm
      · exact hc
      · rw [hevents] at hm
        exact absurd rfl (hnone _ ((List.mem_cons.mp hm).resolve_left nofun))
    refine h.relay hk h.counts h.nodup rfl hsub hothers (fun _ _ => Iff.rfl) ?_
      (fun hm => absurd rfl (hnone _ hm)) (fun _ => ⟨hann, fun _ => .inr rfl⟩) (fun _ => .inl hc)
      (fun _ => .inl hc) (fun _ => ⟨hc, hgone rfl, hnone⟩) (fun hm => absurd rfl (hnone _ hm))
    intro c₀ hne
    refine ⟨by rw [hidle]; nofun, fun heq => hne ?_⟩
    cases heq
    rfl

/-- The end of a connection is handled, and counted off. -/
theorem Inv.handled_disconnected (h : s.Inv) {r : Nat} {c : ConnectionId}
    (hturn : (s.relays r).handling = some (.disconnected c)) :
    ((s.setRelay r { s.relays r with handling := none }).countOff (.disconnected c)).Inv := by
  obtain ⟨hc, ⟨k, hk, rfl, hgone⟩, hnone⟩ := h.handling r c hturn
  have hlength : s.counted.length = (s.counted.erase c).length + 1 := by
    have hpos := List.length_pos_of_mem hc
    rw [List.length_erase_of_mem hc]
    omega
  have hcounts := h.counts
  rw [hlength] at hcounts
  have hnot : c ∉ s.counted.erase c := h.nodup.not_mem_erase
  refine h.relay hk
    (ActiveConnections.Counts.dec hcounts) (h.nodup.erase c) rfl (List.Sublist.refl _) (fun _ ha _ => ha)
    (fun c₀ hne => List.mem_erase_of_ne hne) ?_ (fun _ => hnot) (fun hbad => absurd hbad hnot)
    (fun hstage => ?_) (fun hm => absurd rfl (hnone _ hm)) nofun (fun hm => absurd rfl (hnone _ hm))
  · intro c₀ hne
    refine ⟨fun heq => hne ?_, nofun⟩
    rw [hturn] at heq
    cases heq
    rfl
  · rw [hgone] at hstage
    rcases hstage with hbad | hbad <;> cases hbad

/-- A relay task that is done with a `Connected` is as it was. -/
theorem Inv.handled_connected (h : s.Inv) {r : Nat} {c : ConnectionId}
    (hturn : (s.relays r).handling = some (.connected c)) :
    (s.setRelay r { s.relays r with handling := none }).Inv := by
  have hqueue : ∀ i, ((s.setRelay r { s.relays r with handling := none }).relays i).x11Events =
      (s.relays i).x11Events ∧ ((s.setRelay r { s.relays r with handling := none }).relays i).alive =
        (s.relays i).alive := by
    intro i
    rw [relays_setRelay]
    split
    · rename_i hi
      exact ⟨by rw [hi], by rw [hi]⟩
    · exact ⟨rfl, rfl⟩
  have hends : ∀ i c', ((s.setRelay r { s.relays r with handling := none }).relays i).handling =
      some (.disconnected c') ↔ (s.relays i).handling = some (.disconnected c') := by
    intro i c'
    rw [relays_setRelay]
    split
    · rename_i hi
      rw [hi, hturn]
      exact iff_of_false nofun nofun
    · exact Iff.rfl
  refine ⟨h.counts, h.nodup, ?_, ?_, ?_, ?_, ?_, ?_, ?_, ?_, ?_⟩
  · intro i e he
    exact h.queued i e ((hqueue i).1 ▸ he)
  · intro i
    rw [(hqueue i).1]
    exact h.order i
  · intro i c' hm
    exact h.waiting i c' ((hqueue i).1 ▸ hm)
  · intro c' hc'
    obtain ⟨k, hk, hann, hgone⟩ := h.leaving c' hc'
    refine ⟨k, hk, hann, fun hg => ?_⟩
    rw [(hqueue _).1, hends]
    exact hgone hg
  · intro c' k hk hstage
    rw [(hqueue _).1]
    exact h.running c' k hk hstage
  · intro i c' hm
    rw [(hqueue i).1] at hm ⊢
    exact h.ended i c' hm
  · intro i c' hc'
    rw [(hqueue i).1]
    exact h.handling i c' ((hends i c').mp hc')
  · intro i c' k hm hk hg
    rw [(hqueue i).1] at hm ⊢
    exact h.paired i c' k hm hk hg
  · intro i hi
    rw [(hqueue i).1]
    exact h.dead i ((hqueue i).2 ▸ hi)

/-- A relay task ends: the events that are lost cancel out. -/
theorem Inv.stop (h : s.Inv) {r : Nat}
    (hqueue : ∀ e ∈ (s.relays r).x11Events, twin e ∈ (s.relays r).x11Events)
    (hturn : ∀ e ∈ (s.relays r).handling, isConnected e = true) :
    (s.setRelay r ⟨false, [], none⟩).Inv := by
  have hold : ∀ i, ∀ e ∈ ((s.setRelay r ⟨false, [], none⟩).relays i).x11Events,
      i ≠ r ∧ e ∈ (s.relays i).x11Events := by
    intro i e he
    rw [relays_setRelay] at he
    split at he
    · cases he
    · rename_i hi
      exact ⟨hi, he⟩
  have hkeep : ∀ i, i ≠ r → (s.setRelay r ⟨false, [], none⟩).relays i = s.relays i :=
    fun i hi => if_neg hi
  -- a connection whose `Connected` is lost has ended, one whose `Disconnected` is lost was not counted
  have hlost : ∀ c, .connected c ∈ (s.relays r).x11Events → ∀ k, s.conns.get c = some k → k.stage = .gone := by
    intro c hm k hk
    obtain ⟨-, -, hgone⟩ := h.queued_at hk (hqueue _ hm) rfl
    exact hgone rfl
  have huncounted : ∀ c, .disconnected c ∈ (s.relays r).x11Events → c ∉ s.counted :=
    fun c hm => h.waiting r c (hqueue _ hm)
  refine ⟨h.counts, h.nodup, ?_, ?_, ?_, ?_, ?_, ?_, ?_, ?_, ?_⟩
  · intro i e he
    exact h.queued i e (hold i e he).2
  · intro i
    rw [relays_setRelay]
    split
    · exact List.Pairwise.nil
    · exact h.order i
  · intro i c hm
    exact h.waiting i c (hold i _ hm).2
  · intro c hc
    obtain ⟨k, hk, hann, hgone⟩ := h.leaving c hc
    refine ⟨k, hk, hann, fun hg => ?_⟩
    by_cases hr : k.relay = r
    · rcases hgone hg with hm | ht
      · exact absurd hc (huncounted c (hr ▸ hm))
      · cases hturn _ (hr ▸ ht)
    · rw [hkeep _ hr]
      exact hgone hg
  · intro c k hk hstage
    by_cases hr : k.relay = r
    · rcases h.running c k hk hstage with hc | hm
      · exact .inl hc
      · rw [hlost c (hr ▸ hm) k hk] at hstage
        rcases hstage with hbad | hbad <;> cases hbad
    · rw [hkeep _ hr]
      exact h.running c k hk hstage
  · intro i c hm
    obtain ⟨hi, hm⟩ := hold i _ hm
    rw [hkeep i hi]
    exact h.ended i c hm
  · intro i c hc
    have hi : i ≠ r := by
      rintro rfl
      rw [relays_setRelay, if_pos rfl] at hc
      contradiction
    rw [hkeep i hi] at hc ⊢
    exact h.handling i c hc
  · intro i c k hm hk hg
    obtain ⟨hi, hm⟩ := hold i _ hm
    rw [hkeep i hi]
    exact h.paired i c k hm hk hg
  · intro i hi
    by_cases hr : i = r
    · rw [relays_setRelay, if_pos hr]
    · rw [hkeep i hr] at hi ⊢
      exact h.dead i hi

/-! ## Runs -/

theorem advance_eq_some {c : ConnectionId} {stage : Stage} {next : Conn → Listener} :
    s.advance c stage next = some t ↔ ∃ k, s.conns.get c = some k ∧ k.stage = stage ∧ next k = t := by
  unfold advance
  cases s.conns.get c with
  | none => simp
  | some k => by_cases hp : k.stage = stage <;> simp [hp]

/-- A connection that has not announced itself is in no queue and is not counted. -/
theorem Inv.unannounced (h : s.Inv) {c : ConnectionId} {k : Conn} (hk : s.conns.get c = some k)
    (hstage : k.stage = .announcing) : c ∉ s.counted ∧ ∀ r, ∀ e ∈ (s.relays r).x11Events, e.conn ≠ c := by
  constructor
  · intro hc
    obtain ⟨k', hk', hann, -⟩ := h.leaving c hc
    obtain rfl := Option.some.inj (hk.symm.trans hk')
    exact hann hstage
  · intro r e he hc
    obtain ⟨-, hann, -⟩ := h.queued_at hk he hc
    exact hann hstage

theorem step_inv (h : s.Inv) {a : Action} (hg : s.CountedOff a) (hstep : s.step a = some t) : t.Inv := by
  cases a with
  | accept c r =>
    simp only [step] at hstep
    split at hstep
    · contradiction
    · rename_i hc
      cases hstep
      have hnone := Option.not_isSome_iff_eq_none.mp hc
      refine h.setConn ?_ nofun ?_ nofun
      · rw [hnone]
        nofun
      · rintro (hbad | hbad) <;> cases hbad
  | announce c =>
    obtain ⟨k, hk, hstage, heq⟩ := advance_eq_some.mp hstep
    obtain ⟨hc, hqueue⟩ := h.unannounced hk hstage
    split at heq
    · rename_i halive
      subst heq
      refine h.sendFrom (.connected c) { k with stage := .pumping } hk halive rfl ?_ nofun ?_ ?_
        (fun _ => hc) nofun
      · rw [hstage]
        nofun
      · exact iff_of_false nofun nofun
      · exact fun a ha hac => absurd hac (hqueue _ a ha)
    · subst heq
      refine h.setConn ?_ (fun hbad => absurd hbad hc) ?_ ?_
      · intro k₀ hk₀
        obtain rfl := Option.some.inj (hk.symm.trans hk₀)
        exact ⟨rfl, nofun, fun _ => rfl⟩
      · rintro (hbad | hbad) <;> cases hbad
      · exact fun _ r hm => hqueue r _ hm rfl
  | hangUp c =>
    obtain ⟨k, hk, hstage, heq⟩ := advance_eq_some.mp hstep
    subst heq
    refine h.setConn ?_ nofun (fun _ => ⟨k, hk, .inl hstage⟩) nofun
    intro k₀ hk₀
    obtain rfl := Option.some.inj (hk.symm.trans hk₀)
    refine ⟨rfl, nofun, fun hg => ?_⟩
    rw [hstage] at hg
    cases hg
  | disconnect c =>
    obtain ⟨k, hk, hstage, heq⟩ := advance_eq_some.mp hstep
    subst heq
    have hrunning := h.running c k hk (.inr hstage)
    by_cases halive : (s.relays k.relay).alive = true
    · refine h.sendFrom (.disconnected c) { k with stage := .gone } hk halive rfl ?_ nofun
        ⟨fun _ => rfl, fun _ => rfl⟩ ?_ nofun fun _ => hrunning
      · rw [hstage]
        nofun
      · -- the connection has not ended before, so what is in the queue is its `Connected`
        intro a ha hac
        refine ⟨?_, rfl⟩
        by_contra hend
        obtain ⟨-, -, hgone⟩ := h.queued_at hk ha hac
        have hbad := hgone (by simpa using hend)
        rw [hstage] at hbad
        cases hbad
    · have hc : c ∉ s.counted := (hg k hk).resolve_left halive
      have hdead : (s.relays k.relay).x11Events = [] := h.dead _ (by simpa using halive)
      rw [show (s.setConn c { k with stage := .gone }).send k.relay (.disconnected c) =
        s.setConn c { k with stage := .gone } from if_neg halive]
      refine h.setConn ?_ (fun hbad => absurd hbad hc) ?_ ?_
      · intro k₀ hk₀
        obtain rfl := Option.some.inj (hk.symm.trans hk₀)
        exact ⟨rfl, nofun, fun _ => rfl⟩
      · rintro (hbad | hbad) <;> cases hbad
      · intro _ r hm
        obtain ⟨rfl, -⟩ := h.queued_at hk hm rfl
        rw [hdead] at hm
        cases hm
  | recv r =>
    simp only [step] at hstep
    split at hstep
    · rename_i e rest hidle hevents
      cases hstep
      apply h.recv hevents hidle
      intro he
      apply hg
      rw [hevents]
      exact he
    · contradiction
  | handled r =>
    simp only [step] at hstep
    split at hstep
    · rename_i e hturn
      cases hstep
      cases e with
      | connected c => exact h.handled_connected hturn
      | disconnected c => exact h.handled_disconnected hturn
    · contradiction
  | stop r =>
    cases hstep
    exact h.stop hg.1 hg.2

/-- A run in which every connection that is counted is counted off keeps the counter exact. -/
theorem exact_of_counted {as : List Action} (hg : Meets step CountedOff init as)
    (hr : run step init as = some s) : s.Exact :=
  (run_inv (fun _ _ _ hI hG h => step_inv hI hG h) inv_init hg hr).exact

end Listener

open RemoteX11.Client.Opens (Proxy)

/-- **The active X11 connections, on both ends.** In every state of a run in which the client takes every
    increment back once, and the server counts off what it has counted, no decrement has met zero, and
    with nothing under way the counter is the number of channels that are open. -/
theorem active_connections_exact (s : Proxy) (t : Listener) :
    (∀ as, Meets Proxy.step Proxy.CountedOnce Proxy.init as →
      run Proxy.step Proxy.init as = some s → s.Exact) ∧
    ∀ as, Meets Listener.step Listener.CountedOff Listener.init as →
      run Listener.step Listener.init as = some t → t.Exact :=
  ⟨fun _ hg hr => Proxy.exact_of_counted hg hr, fun _ hg hr => Listener.exact_of_counted hg hr⟩

/-- A channel is opened, another is refused, and the session ends with one open; the next one opens a
    channel again. -/
def twoSessions : List Client.Opens.Action :=
  [.reconnect, .channelOpen ⟨1⟩, .spawn, .insert, .channelOpen ⟨2⟩, .connectFails, .refused, .stop, .cleanup,
    .cancel 0, .reconnect, .channelOpen ⟨3⟩, .spawn, .insert]

/-- An application comes and goes, and another one stays. -/
def oneStays : List Action :=
  [.accept ⟨1⟩ 0, .announce ⟨1⟩, .accept ⟨2⟩ 0, .recv 0, .announce ⟨2⟩, .handled 0, .hangUp ⟨1⟩, .recv 0,
    .disconnect ⟨1⟩, .handled 0, .recv 0, .handled 0]

theorem active_connections_exact_one : ∃ s t, run Proxy.step Proxy.init twoSessions = some s ∧
    run Listener.step Listener.init oneStays = some t ∧ s.Quiet ∧ s.stats.value = 1 ∧
    t.stats.value = 1 ∧ s.Exact ∧ t.Exact := by
  have hs : ∃ s ∈ run Proxy.step Proxy.init twoSessions, s.Quiet ∧ s.stats.value = 1 := by decide
  have ht : ∃ t ∈ run Listener.step Listener.init oneStays, t.stats.value = 1 := by decide
  obtain ⟨s, hs, hquiet, hone⟩ := hs
  obtain ⟨t, ht, hone'⟩ := ht
  have h := active_connections_exact s t
  exact ⟨s, t, hs, ht, hquiet, hone, hone', h.1 twoSessions (by decide) hs, h.2 oneStays (by decide) ht⟩

/-- The client goes away while an application is connected, and then the application does. -/
def clientLeaves : List Action :=
  [.accept ⟨1⟩ 0, .announce ⟨1⟩, .recv 0, .handled 0, .stop 0, .hangUp ⟨1⟩, .disconnect ⟨1⟩]

/-- The server counts a connection that is gone for good, and the client counts one off twice. -/
theorem counters_drift :
    (¬ ∀ as (s : Listener), run Listener.step Listener.init as = some s → s.Exact) ∧
    ¬ ∀ as (s : Proxy), run Proxy.step Proxy.init as = some s → s.Exact := by
  constructor
  · intro h
    have hexact := h clientLeaves _ rfl
    have hquiet : Listener.Quiet ((run Listener.step Listener.init clientLeaves).get rfl) := by
      constructor
      · intro r
        cases r <;> exact ⟨rfl, rfl⟩
      · intro c k hk
        have hmem : (c, k) ∈ [((⟨1⟩ : ConnectionId), (⟨0, .gone⟩ : Conn))] := Table.mem_entries.mpr hk
        rw [List.mem_singleton] at hmem
        cases hmem
        exact .inr rfl
    exact absurd (hexact.1 hquiet) (by decide)
  · intro h
    have hrun : ∃ s ∈ run Proxy.step Proxy.init Proxy.throughAtOnce, s.stats.underflows = 1 := by decide
    obtain ⟨s, hs, hone⟩ := hrun
    have hnone := (h _ s hs).2
    rw [hone] at hnone
    cases hnone

end RemoteX11.Server.Opens
