/-
  The server's end of the uplink: the ownership gate in front of the stream decoder
  (`relay/connection.rs`, `handle_inbound_frame` and `handle_x11_event`; `session/mod.rs`; the client's
  `serve/mod.rs` and `proxy.rs`).

  Applications connect and disconnect on the server, the relay opens and closes their channels at the
  client, and the client's pumps keep sending until they learn of it. All uplink frames of a client go
  through one stream decoder, but a data frame reaches it only when its channel is registered and owned
  by the client at that moment.

  `uplink_in_step`: while every compressed frame finds its channel registered, the decoder is fed every
  fragment received, in order, and no frame fails to decompress. The frames of the client are taken in
  the order its encoder made them.
-/
import RemoteX11.Client.Uplink
import RemoteX11.Data.Link
import RemoteX11.Lib.Assoc

namespace RemoteX11.Server

open RemoteX11.Lib RemoteX11.Protocol RemoteX11.Data RemoteX11.Client
open RemoteX11.Client.Uplink (streamClient blockParams)

/-! ## The registry -/

/-- The part of `SessionManager` that decides ownership: the connections with their displays, the
    connections of each display, and the client of each display's session. -/
structure Registry where
  connections : List (ConnectionId × DisplayNumber)
  displayConns : List (DisplayNumber × List ConnectionId)
  sessions : List (DisplayNumber × String)
  deriving DecidableEq, Repr

namespace Registry

def empty : Registry := ⟨[], [], []⟩

/-- `owns_session`. -/
def ownsSession (reg : Registry) (disp : DisplayNumber) (client : String) : Bool :=
  Assoc.get reg.sessions disp == some client

/-- `owns_connection`. -/
def ownsConnection (reg : Registry) (c : ConnectionId) (client : String) : Bool :=
  match Assoc.get reg.connections c with
  | some disp => reg.ownsSession disp client
  | none => false

/-- `MAX_X11_CONNECTIONS_PER_DISPLAY`. -/
def maxX11ConnectionsPerDisplay : Nat := 64

def connsOf (reg : Registry) (disp : DisplayNumber) : List ConnectionId :=
  (Assoc.get reg.displayConns disp).getD []

/-- `register_x11_connection`. -/
def registerX11Connection (reg : Registry) (c : ConnectionId) (disp : DisplayNumber) :
    Option Registry :=
  if maxX11ConnectionsPerDisplay ≤ (reg.connsOf disp).length then none
  else some { reg with
    connections := Assoc.put reg.connections c disp
    displayConns := Assoc.put reg.displayConns disp (c :: (reg.connsOf disp).erase c) }

/-- `unregister_x11_connection`. -/
def unregisterX11Connection (reg : Registry) (c : ConnectionId) : Registry :=
  match Assoc.get reg.connections c with
  | some disp => { reg with
      connections := Assoc.remove reg.connections c
      displayConns := Assoc.put reg.displayConns disp ((reg.connsOf disp).erase c) }
  | none => reg

/-- `destroy_session`. -/
def destroySession (reg : Registry) (disp : DisplayNumber) : Registry where
  connections := reg.connections.filter fun e => e.1 ∉ reg.connsOf disp
  displayConns := Assoc.remove reg.displayConns disp
  sessions := Assoc.remove reg.sessions disp

/-- A session is inserted for a free display, or resumed by another client. -/
def setSession (reg : Registry) (disp : DisplayNumber) (client : String) : Registry :=
  { reg with sessions := Assoc.put reg.sessions disp client }

end Registry

/-! ## The system -/

/-- What an application's pump reports to the relay about its connection. -/
inductive X11ConnToRelay where
  | connected (display : DisplayNumber) (c : ConnectionId)
  | disconnected (c : ConnectionId)
  deriving DecidableEq, Repr

/-- A local pump of the client. `listed` says that the client's map still has it: a `ChannelClose` from
    the relay takes it out, and it runs on until it notices. -/
structure LocalPump where
  connectionId : ConnectionId
  base : Option ConnectionDataCache
  reset : Bool
  listed : Bool
  running : Bool

/-- A client and its relay task, with the frames between them. -/
structure System (K : Codecs) where
  registry : Registry
  events : List X11ConnToRelay
  /-- the stream decoder, `uplink_cache` and the counters -/
  receiver : DataPlane.Receiver K
  /-- `relay_loop` is running -/
  connected : Bool
  /-- a frame failed to decompress -/
  broken : Bool
  down : List Frame
  up : List Frame
  received : List Frame
  shared : Shared K
  pumps : List LocalPump

inductive Action where
  /-- a session is created or resumed for a display, by this client or another -/
  | session (disp : DisplayNumber) (client : String)
  | destroy (disp : DisplayNumber)
  /-- an application's connection is registered and reported -/
  | connect (c : ConnectionId) (disp : DisplayNumber)
  /-- an application's connection has ended and is reported -/
  | disconnect (c : ConnectionId)
  /-- its pump unregisters it -/
  | unregister (c : ConnectionId)
  /-- the relay handles the next event -/
  | event
  /-- the relay handles the next frame of the client -/
  | receive
  /-- the client handles the next frame of the relay; `connects` says whether the local X server
      accepts the connection for a new channel -/
  | dispatch (connects : Bool)
  /-- a local pump reads, builds a frame and sends it -/
  | uplink (p : Nat) (data : Bytes)
  /-- a local pump ends -/
  | endPump (p : Nat)
  /-- the client sends another frame -/
  | control (frame : Frame)

namespace System

variable {K : Codecs}

/-- `handle_x11_event`. -/
def handleX11Event (s : System K) : X11ConnToRelay → System K
  | .connected display c =>
    { s with down := s.down ++ [.json (.channelOpen ⟨c, .x11, some display, none⟩)] }
  | .disconnected c =>
    { s with
      registry := s.registry.unregisterX11Connection c
      receiver := { s.receiver with cache := s.receiver.cache.clearConnection c }
      down := s.down ++ [.json (.channelClose ⟨c⟩)] }

/-- The data frames of `handle_inbound_frame`: the ownership gate comes first. -/
def handleData (rdp : DataPlane) (client : String) (s : System K) (frame : Frame) : System K :=
  match frame.connectionId with
  | none => s
  | some c =>
    if s.registry.ownsConnection c client = false then s
    else
      let (outcome, receiver) := rdp.applyInbound K s.receiver frame
      match outcome with
      | .payload _ _ => { s with receiver := receiver }
      | .resyncRequired c =>
        if rdp.features.supports .requestResync then
          { s with
            receiver := receiver
            down := s.down ++ [.json (.streamResyncRequest ⟨c⟩)] }
        else { s with receiver := receiver }
      | .streamBroken => { s with receiver := receiver, connected := false, broken := true }
      | .dropped => { s with receiver := receiver }

/-- `handle_inbound_frame`. What a session frame does to the registry is a `session` or a `destroy`
    step; the other frames do not touch the uplink. -/
def handleInboundFrame (rdp : DataPlane) (client : String) (s : System K) (frame : Frame) :
    System K :=
  match frame with
  | .binary m => s.handleData rdp client (.binary m)
  | _ => s

/-- The client's `dispatch_frame`, for the frames that start, stop or reset a pump. -/
def dispatchFrame (dp : DataPlane) (params : DiffParams) (connects : Bool) (s : System K) :
    Frame → System K
  | .json (.channelOpen m) =>
    if m.kind ≠ .x11 then s
    else if connects then
      let base := if dp.mayDiffSend then some (ConnectionDataCache.withParams params) else none
      { s with pumps := s.pumps ++ [⟨m.connectionId, base, false, true, true⟩] }
    else { s with up := s.up ++ [.json (.channelClose ⟨m.connectionId⟩)] }
  | .json (.channelClose m) =>
    { s with pumps := s.pumps.map fun p =>
        if p.connectionId = m.connectionId then { p with listed := false } else p }
  | .json (.streamResyncRequest m) =>
    if dp.features.supports .requestResync then
      { s with pumps := s.pumps.map fun p =>
          if p.listed ∧ p.connectionId = m.connectionId then { p with reset := true } else p }
    else s
  | _ => s

def step (dp rdp : DataPlane) (params : DiffParams) (client : String) (s : System K) :
    Action → Option (System K)
  | .session disp owner => some { s with registry := s.registry.setSession disp owner }
  | .destroy disp => some { s with registry := s.registry.destroySession disp }
  | .connect c disp =>
    (s.registry.registerX11Connection c disp).map fun registry =>
      { s with registry := registry, events := s.events ++ [.connected disp c] }
  | .disconnect c => some { s with events := s.events ++ [.disconnected c] }
  | .unregister c => some { s with registry := s.registry.unregisterX11Connection c }
  | .event =>
    match s.connected, s.events with
    | true, event :: rest => some ({ s with events := rest }.handleX11Event event)
    | _, _ => none
  | .receive =>
    match s.connected, s.up with
    | true, frame :: rest =>
      some ({ s with up := rest, received := s.received ++ [frame] }.handleInboundFrame
        rdp client frame)
    | _, _ => none
  | .dispatch connects =>
    match s.down with
    | [] => none
    | frame :: rest => some ({ s with down := rest }.dispatchFrame dp params connects frame)
  | .uplink p data =>
    match s.pumps[p]? with
    | some ⟨c, base, reset, listed, true⟩ =>
      if data = [] then none
      else
        let (frame, shared, base') := buildNext dp s.shared base c reset data
        some { s with
          shared := shared
          pumps := s.pumps.set p ⟨c, base', reset && base.isNone, listed, true⟩
          up := s.up ++ [frame] }
    | _ => none
  | .endPump p =>
    match s.pumps[p]? with
    | some ⟨c, base, reset, _, true⟩ =>
      some { s with
        pumps := s.pumps.set p ⟨c, base, reset, false, false⟩
        up := s.up ++ [.json (.channelClose ⟨c⟩)] }
    | _ => none
  | .control frame =>
    match frame with
    | .binary _ => none
    | _ => some { s with up := s.up ++ [frame] }

/-- A client that has just been accepted. -/
def init (K : Codecs) (receiverParams : DiffParams) : System K where
  registry := .empty
  events := []
  receiver := ⟨K.newDecoder, .withParams receiverParams, .new⟩
  connected := true
  broken := false
  down := []
  up := []
  received := []
  shared := ⟨K.newEncoder, 0, .new⟩
  pumps := []

/-- **The property.** The fragments received, with those still on the way, are the encoder's history;
    the decoder was fed exactly those received; and no frame failed to decompress. -/
structure InStep (s : System K) : Prop where
  history : K.History s.shared.encoder (fragmentsOf s.received ++ fragmentsOf s.up)
  decoder : s.receiver.decoder = K.feed K.newDecoder (fragmentsOf s.received)
  unbroken : s.broken = false

/-- A compressed frame that the relay takes names a channel that is registered and owned by the
    client. -/
def Registered (client : String) (s : System K) : Action → Prop
  | .receive => ∀ frame ∈ s.up.head?, fragmentOf frame ≠ none →
      ∀ c ∈ frame.connectionId, s.registry.ownsConnection c client = true
  | _ => True

instance (client : String) (s : System K) (a : Action) : Decidable (s.Registered client a) :=
  match a with
  | .receive => inferInstanceAs (Decidable (∀ frame ∈ s.up.head?, fragmentOf frame ≠ none →
      ∀ c ∈ frame.connectionId, s.registry.ownsConnection c client = true))
  | .session _ _ | .destroy _ | .connect _ _ | .disconnect _ | .unregister _ | .event
  | .dispatch _ | .uplink _ _ | .endPump _ | .control _ => isTrue trivial

/-! ## One frame -/

/-- A data frame changes neither the client nor the frames on the way. -/
theorem handleData_frame (rdp : DataPlane) (client : String) (s : System K) (frame : Frame) :
    (s.handleData rdp client frame).shared = s.shared ∧
      (s.handleData rdp client frame).up = s.up ∧
      (s.handleData rdp client frame).received = s.received := by
  unfold handleData
  split
  · exact ⟨rfl, rfl, rfl⟩
  · split
    · exact ⟨rfl, rfl, rfl⟩
    · dsimp only
      split
      · exact ⟨rfl, rfl, rfl⟩
      · split
        · exact ⟨rfl, rfl, rfl⟩
        · exact ⟨rfl, rfl, rfl⟩
      · exact ⟨rfl, rfl, rfl⟩
      · exact ⟨rfl, rfl, rfl⟩

/-- Behind the gate, `apply_inbound` decides. -/
theorem handleData_owned (rdp : DataPlane) {client : String} (s : System K) (frame : Frame)
    {c : ConnectionId} (hc : frame.connectionId = some c)
    (howns : s.registry.ownsConnection c client = true) :
    (s.handleData rdp client frame).receiver = (rdp.applyInbound K s.receiver frame).2 ∧
      ((rdp.applyInbound K s.receiver frame).1 ≠ .streamBroken →
        (s.handleData rdp client frame).broken = s.broken) := by
  simp only [handleData, hc, howns, Bool.true_eq_false, if_false]
  split
  · exact ⟨rfl, fun _ => rfl⟩
  · split
    · exact ⟨rfl, fun _ => rfl⟩
    · exact ⟨rfl, fun _ => rfl⟩
  · rename_i houtcome
    exact ⟨rfl, fun hne => absurd houtcome hne⟩
  · exact ⟨rfl, fun _ => rfl⟩

/-- A frame without a fragment does not reach the decoder, whoever owns its channel. -/
theorem handleData_plain (rdp : DataPlane) (client : String) (s : System K) {frame : Frame}
    (hf : fragmentOf frame = none) :
    (s.handleData rdp client frame).receiver.decoder = s.receiver.decoder ∧
      (s.handleData rdp client frame).broken = s.broken := by
  rcases hc : frame.connectionId with _ | c
  · have hsame : s.handleData rdp client frame = s := by simp only [handleData, hc]
    rw [hsame]
    exact ⟨rfl, rfl⟩
  · rcases howns : s.registry.ownsConnection c client with _ | _
    · have hsame : s.handleData rdp client frame = s := by
        simp only [handleData, hc, howns, if_true]
      rw [hsame]
      exact ⟨rfl, rfl⟩
    · obtain ⟨hreceiver, hbroken⟩ := handleData_owned rdp s frame hc howns
      obtain ⟨hdec, hout⟩ := applyInbound_plain rdp s.receiver hf
      rw [hreceiver]
      exact ⟨hdec, hbroken hout⟩

/-! ## The invariant -/

structure Inv (rdp : DataPlane) (s : System K) : Prop where
  inStep : s.InStep
  /-- diffs on the way were negotiated -/
  diffs : ∀ f ∈ s.up, isCompressedDiff f = true → rdp.mayDiffReceive = true

/-- A step beside the stream. -/
theorem Inv.beside {rdp : DataPlane} {s t : System K} (h : s.Inv rdp) (hshared : t.shared = s.shared)
    (hdecoder : t.receiver.decoder = s.receiver.decoder) (hreceived : t.received = s.received)
    (hup : t.up = s.up) (hbroken : t.broken = s.broken) : t.Inv rdp := by
  obtain ⟨⟨hhist, hdec, hun⟩, hdiffs⟩ := h
  refine ⟨⟨?_, ?_, ?_⟩, ?_⟩
  · rw [hshared, hreceived, hup]
    exact hhist
  · rw [hdecoder, hreceived]
    exact hdec
  · rw [hbroken]
    exact hun
  · rw [hup]
    exact hdiffs

/-- One more frame on the way. -/
theorem Inv.send {rdp : DataPlane} {s t : System K} (h : s.Inv rdp) (frame : Frame)
    (hhistory : K.History t.shared.encoder
      (fragmentsOf s.received ++ fragmentsOf s.up ++ (fragmentOf frame).toList))
    (hdiff : isCompressedDiff frame = true → rdp.mayDiffReceive = true)
    (hdecoder : t.receiver.decoder = s.receiver.decoder) (hreceived : t.received = s.received)
    (hup : t.up = s.up ++ [frame]) (hbroken : t.broken = s.broken) : t.Inv rdp := by
  obtain ⟨⟨hhist, hdec, hun⟩, hdiffs⟩ := h
  refine ⟨⟨?_, ?_, ?_⟩, ?_⟩
  · rw [hreceived, hup, fragmentsOf_append, fragmentsOf_singleton, ← List.append_assoc]
    exact hhistory
  · rw [hdecoder, hreceived]
    exact hdec
  · rw [hbroken]
    exact hun
  · rw [hup]
    exact forall_mem_snoc hdiffs hdiff

/-- One more frame on the way that is no data frame. -/
theorem Inv.control {rdp : DataPlane} {s t : System K} (h : s.Inv rdp) {frame : Frame}
    (hframe : fragmentOf frame = none) (hshared : t.shared = s.shared)
    (hdecoder : t.receiver.decoder = s.receiver.decoder) (hreceived : t.received = s.received)
    (hup : t.up = s.up ++ [frame]) (hbroken : t.broken = s.broken) : t.Inv rdp := by
  refine h.send frame ?_ ?_ hdecoder hreceived hup hbroken
  · rw [hshared, hframe, Option.toList_none, List.append_nil]
    exact h.inStep.history
  · intro hdiff
    unfold isCompressedDiff at hdiff
    split at hdiff
    · simp [fragmentOf] at hframe
    · contradiction

/-- The relay takes a frame. -/
theorem Inv.receive {rdp : DataPlane} (hK : K.RoundTrips)
    (hz : rdp.compression = some .zstdStream) {client : String} {s : System K} (h : s.Inv rdp)
    (hreg : s.Registered client .receive) {frame : Frame} {rest : List Frame}
    (hup : s.up = frame :: rest) :
    ({ s with up := rest, received := s.received ++ [frame] }.handleInboundFrame rdp client
      frame).Inv rdp := by
  obtain ⟨⟨hhist, hdec, hun⟩, hdiffs⟩ := h
  rw [hup] at hdiffs
  rw [hup, fragmentsOf_cons, ← List.append_assoc] at hhist
  have hrest : ∀ f ∈ rest, isCompressedDiff f = true → rdp.mayDiffReceive = true :=
    fun f hf => hdiffs f (List.mem_cons_of_mem _ hf)
  -- the received frames after the step, with those on the way, are the history as before
  have hhistory : K.History s.shared.encoder
      (fragmentsOf (s.received ++ [frame]) ++ fragmentsOf rest) := by
    rw [fragmentsOf_append, fragmentsOf_singleton]
    exact hhist
  rcases hf : fragmentOf frame with _ | ⟨n, z⟩
  · have hfeed : s.receiver.decoder = K.feed K.newDecoder (fragmentsOf (s.received ++ [frame])) := by
      simpa [hf] using hdec
    unfold handleInboundFrame
    split
    · rename_i m
      obtain ⟨hsh, hu, hr⟩ := handleData_frame rdp client
        { s with up := rest, received := s.received ++ [.binary m] } (.binary m)
      obtain ⟨hd, hb⟩ := handleData_plain rdp client
        { s with up := rest, received := s.received ++ [.binary m] } hf
      exact ⟨⟨by rw [hsh, hr, hu]; exact hhistory, by rw [hd, hr]; exact hfeed,
        by rw [hb]; exact hun⟩, by rw [hu]; exact hrest⟩
    · exact ⟨⟨hhistory, hfeed, hun⟩, hrest⟩
  · -- the fragment is due, and the gate lets its frame pass
    rw [hf, Option.toList_some, List.append_assoc, List.singleton_append] at hhist
    obtain ⟨hn, data, hdata⟩ := hhist.decodes hK
    obtain ⟨m, rfl⟩ : ∃ m, frame = .binary m := by
      unfold fragmentOf at hf
      split at hf
      · exact ⟨_, rfl⟩
      · exact ⟨_, rfl⟩
      · contradiction
    have howns : s.registry.ownsConnection m.connectionId client = true :=
      hreg (.binary m) (by rw [hup]; rfl) (by rw [hf]; simp) m.connectionId rfl
    obtain ⟨hsh, hu, hr⟩ := handleData_frame rdp client
      { s with up := rest, received := s.received ++ [.binary m] } (.binary m)
    obtain ⟨hreceiver, hbroken⟩ := handleData_owned rdp
      { s with up := rest, received := s.received ++ [.binary m] } (.binary m) rfl howns
    obtain ⟨hfed, hout⟩ := applyInbound_feeds hz s.receiver hf hn (hdiffs _ List.mem_cons_self)
    have hunbroken : (rdp.applyInbound K s.receiver (.binary m)).1 ≠ .streamBroken := by
      intro hb
      have hnone := hout.mp hb
      rw [hdec, hdata] at hnone
      contradiction
    have hfeed : (rdp.applyInbound K s.receiver (.binary m)).2.decoder =
        K.feed K.newDecoder (fragmentsOf (s.received ++ [.binary m])) := by
      rw [hfed, hdec, fragmentsOf_append, fragmentsOf_singleton, hf, Codecs.feed_append]
      rfl
    unfold handleInboundFrame
    exact ⟨⟨by rw [hsh, hr, hu]; exact hhistory, by rw [hreceiver, hr]; exact hfeed,
      by rw [hbroken hunbroken]; exact hun⟩, by rw [hu]; exact hrest⟩

/-- The client handles a frame of the relay. -/
theorem Inv.dispatch {rdp : DataPlane} {s : System K} (h : s.Inv rdp) (dp : DataPlane)
    (params : DiffParams) (connects : Bool) (frame : Frame) :
    (s.dispatchFrame dp params connects frame).Inv rdp := by
  unfold dispatchFrame
  split
  · split
    · exact h
    · split
      · exact h.beside rfl rfl rfl rfl rfl
      · exact h.control rfl rfl rfl rfl rfl rfl
  · exact h.beside rfl rfl rfl rfl rfl
  · split
    · exact h.beside rfl rfl rfl rfl rfl
    · exact h
  · exact h

theorem step_inv {dp rdp : DataPlane} (hK : K.RoundTrips) (hm : Mirrors dp rdp)
    (hz : dp.compression = some .zstdStream) {params : DiffParams} {client : String}
    {s t : System K} {a : Action} (hI : s.Inv rdp) (hreg : s.Registered client a)
    (h : s.step dp rdp params client a = some t) : t.Inv rdp := by
  cases a with
  | connect c disp =>
    obtain ⟨registry, -, rfl⟩ := Option.map_eq_some_iff.mp h
    exact hI.beside rfl rfl rfl rfl rfl
  | event =>
    simp only [step] at h
    split at h
    · rename_i event rest _ _
      obtain rfl := Option.some.inj h
      rcases event with ⟨display, c⟩ | c
      · exact hI.beside rfl rfl rfl rfl rfl
      · exact hI.beside rfl rfl rfl rfl rfl
    · contradiction
  | receive =>
    simp only [step] at h
    split at h
    · rename_i frame rest _ hup
      obtain rfl := Option.some.inj h
      exact hI.receive hK (hm.compression.trans hz) hreg hup
    · contradiction
  | dispatch connects =>
    simp only [step] at h
    split at h
    · contradiction
    · rename_i frame rest _
      obtain rfl := Option.some.inj h
      have hrest : ({ s with down := rest } : System K).Inv rdp := hI.beside rfl rfl rfl rfl rfl
      exact hrest.dispatch dp params connects frame
  | uplink p data =>
    simp only [step] at h
    split at h
    · rename_i c base reset listed _
      split at h
      · contradiction
      · rename_i hdata
        obtain rfl := Option.some.inj h
        refine hI.send _ (buildNext_history hz hI.inStep.history base c reset hdata) ?_ rfl rfl rfl
          rfl
        intro hdiff
        rw [DataPlane.mayDiffReceive_opposite hm.side hm.features]
        exact buildNext_diff hdiff
    · contradiction
  | endPump p =>
    simp only [step] at h
    split at h
    · obtain rfl := Option.some.inj h
      exact hI.control rfl rfl rfl rfl rfl rfl
    · contradiction
  | control frame =>
    simp only [step] at h
    split at h
    · contradiction
    · rename_i hnot
      obtain rfl := Option.some.inj h
      refine hI.control ?_ rfl rfl rfl rfl rfl
      unfold fragmentOf
      split
      · exact absurd rfl (hnot _)
      · exact absurd rfl (hnot _)
      · rfl
  | _ =>
    obtain rfl := Option.some.inj h
    exact hI.beside rfl rfl rfl rfl rfl

/-- **The decoder follows the encoder.** For any order of connects, disconnects, destroyed and resumed
    sessions and frames on the way: in a run in which every compressed frame finds its channel
    registered and owned by the client when the relay takes it, the decoder has been fed exactly the
    fragments received, in order, they are the encoder's history up to what is on the way, and no frame
    of any channel has failed to decompress. -/
theorem uplink_in_step (K : Codecs) (hK : K.RoundTrips) (dp rdp : DataPlane) (hm : Mirrors dp rdp)
    (hz : dp.compression = some .zstdStream) (params receiverParams : DiffParams) (client : String)
    (as : List Action) (t : System K)
    (hr : run (step dp rdp params client) (init K receiverParams) as = some t)
    (hreg : Meets (step dp rdp params client) (Registered client) (init K receiverParams) as) :
    t.InStep := by
  have hinit : (init K receiverParams).Inv rdp :=
    ⟨⟨Codecs.history_new, rfl, rfl⟩, fun f hf => absurd hf List.not_mem_nil⟩
  have hI : t.Inv rdp :=
    run_inv (fun _ _ _ hI hg h => step_inv hK hm hz hI hg h) hinit hreg hr
  exact hI.inStep

/-- The relay's plane for `streamClient`. -/
def streamRelay : DataPlane := ⟨.relay, ⟨[]⟩, some .zstdStream, 4⟩

/-- A session with two applications whose channels are open at the client. -/
def twoChannels : List Action :=
  [.session ⟨10⟩ "client", .connect ⟨1⟩ ⟨10⟩, .connect ⟨2⟩ ⟨10⟩, .event, .event,
    .dispatch true, .dispatch true]

/-- The first application disconnects when the compressed frame of its channel has been taken; a short
    frame of the channel arrives later. -/
def registeredRun : List Action :=
  twoChannels ++ [.uplink 0 [1, 1, 1, 1], .receive, .disconnect ⟨1⟩, .uplink 0 [1], .event,
    .unregister ⟨1⟩, .receive, .dispatch true, .endPump 0, .uplink 1 [2, 2, 2, 2], .receive,
    .receive, .uplink 1 [2, 2, 2, 2, 2]]

theorem uplink_in_step_registered :
    ∃ t, run (step streamClient streamRelay blockParams "client") (init .counting blockParams)
        registeredRun = some t ∧
      t.received.length = 4 ∧ t.registry.ownsConnection ⟨1⟩ "client" = false ∧ t.InStep :=
  have hr := Option.eq_some_of_isSome
    (show (run (step streamClient streamRelay blockParams "client") (init .counting blockParams)
      registeredRun).isSome = true by decide +kernel)
  ⟨_, hr, by decide +kernel, by decide +kernel,
    uplink_in_step .counting Codecs.counting_roundTrips streamClient streamRelay ⟨rfl, rfl, rfl⟩ rfl
      blockParams blockParams "client" registeredRun _ hr (by decide +kernel)⟩

/-- The first application disconnects while a compressed frame of its channel is on the way; the
    second, healthy channel sends after it. -/
def skippedRun : List Action :=
  twoChannels ++ [.uplink 0 [1, 1, 1, 1], .disconnect ⟨1⟩, .event, .receive,
    .uplink 1 [2, 2, 2, 2], .receive]

/-- A fragment is skipped, and the next frame of the other channel breaks the stream. -/
theorem closed_channel_breaks_stream :
    ¬∀ (as : List Action) (t : System .counting),
      run (step streamClient streamRelay blockParams "client") (init .counting blockParams) as =
        some t → t.InStep := by
  intro h
  have hr := Option.eq_some_of_isSome
    (show (run (step streamClient streamRelay blockParams "client") (init .counting blockParams)
      skippedRun).isSome = true by decide +kernel)
  have hunbroken := (h skippedRun _ hr).unbroken
  revert hunbroken
  decide +kernel

end System

end RemoteX11.Server
