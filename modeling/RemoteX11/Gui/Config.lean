/-
  The configuration that the GUI edits (`settings/model.rs`, and the tables of keys in `settings/flat.rs`).

  A `GuiConfig` gives every one of the 38 keys its value or none; `Key.section`, `Key.name` and `Key.kind` are the
  rows of the four sections. `toRuntime` fills in what is not set, as the sessions see it.

  `usize` is 64 bits wide. The two zeros of a float are one.
-/
import RemoteX11.Lib.Toml
import RemoteX11.Settings.Runtime
import Mathlib.Data.List.Nodup
import Mathlib.Logic.Function.Basic

namespace RemoteX11.Gui

open RemoteX11.Lib RemoteX11.Lib.Toml RemoteX11.Settings RemoteX11.Recode

inductive Section where
  | client
  | server
  | ssh
  | runtime
  deriving DecidableEq, Repr

/-- `NAME`. -/
def Section.name : Section → String
  | client => "client"
  | server => "server"
  | ssh => "ssh"
  | runtime => "runtime"

/-- What a field holds. -/
inductive Kind where
  | string
  | uint (bits : Nat)
  | boolean
  | float
  | argv
  deriving DecidableEq, Repr

abbrev Kind.type : Kind → Type
  | string => String
  | uint bits => BitVec bits
  | boolean => Bool
  | float => F64
  | argv => List String

/-- A value that TOML can hold: an integer is at most the largest signed one. -/
def Kind.Storable : (kind : Kind) → kind.type → Prop
  | .uint _, v => v.toNat < 2 ^ 63
  | .string, _ | .boolean, _ | .float, _ | .argv, _ => True

instance : (kind : Kind) → DecidableEq kind.type
  | .string => inferInstanceAs (DecidableEq String)
  | .uint bits => inferInstanceAs (DecidableEq (BitVec bits))
  | .boolean => inferInstanceAs (DecidableEq Bool)
  | .float => inferInstanceAs (DecidableEq F64)
  | .argv => inferInstanceAs (DecidableEq (List String))

inductive Key where
  | clientRelay
  | clientToken
  | clientX11
  | clientDisplay
  | serverListen
  | serverX11Port
  | serverToken
  | sshHost
  | sshPort
  | sshUser
  | sshIdentity
  | sshToken
  | sshRelayPort
  | sshX11
  | sshDisplay
  | sshReconnect
  | heartbeatIntervalSecs
  | heartbeatTimeoutSecs
  | clientReadTimeoutSecs
  | compressionThreshold
  | diffChunkSize
  | diffMinBlockSize
  | diffMinSavingsRatio
  | incrementalUplink
  | outboundQueueBytes
  | tcpSendBufferBytes
  | imageRecode
  | imageRecodeCodec
  | imageRecodeQuality
  | imageRecodeMinBytes
  | audioForward
  | audioPerApp
  | audioBitrateKbps
  | audioRecordCommand
  | audioPlayCommand
  | flowControl
  | flowPauseBytes
  | flowResumeBytes
  deriving DecidableEq, Repr

/-- `FIELDS`. -/
def Section.fields : Section → List Key
  | client => [.clientRelay, .clientToken, .clientX11, .clientDisplay]
  | server => [.serverListen, .serverX11Port, .serverToken]
  | ssh => [.sshHost, .sshPort, .sshUser, .sshIdentity, .sshToken, .sshRelayPort, .sshX11, .sshDisplay,
      .sshReconnect]
  | runtime => [.heartbeatIntervalSecs, .heartbeatTimeoutSecs, .clientReadTimeoutSecs, .compressionThreshold,
      .diffChunkSize, .diffMinBlockSize, .diffMinSavingsRatio, .incrementalUplink, .outboundQueueBytes,
      .tcpSendBufferBytes, .imageRecode, .imageRecodeCodec, .imageRecodeQuality, .imageRecodeMinBytes,
      .audioForward, .audioPerApp, .audioBitrateKbps, .audioRecordCommand, .audioPlayCommand, .flowControl,
      .flowPauseBytes, .flowResumeBytes]

namespace Key

/-- The section of a field. -/
def sectionOf : Key → Section
  | clientRelay | clientToken | clientX11 | clientDisplay => .client
  | serverListen | serverX11Port | serverToken => .server
  | sshHost | sshPort | sshUser | sshIdentity | sshToken | sshRelayPort | sshX11 | sshDisplay
  | sshReconnect => .ssh
  | _ => .runtime

/-- The name of a field in its section. -/
def name : Key → String
  | clientRelay => "relay"
  | clientToken => "token"
  | clientX11 => "x11"
  | clientDisplay => "display"
  | serverListen => "listen"
  | serverX11Port => "x11_port"
  | serverToken => "token"
  | sshHost => "host"
  | sshPort => "port"
  | sshUser => "user"
  | sshIdentity => "identity"
  | sshToken => "token"
  | sshRelayPort => "relay_port"
  | sshX11 => "x11"
  | sshDisplay => "display"
  | sshReconnect => "reconnect"
  | heartbeatIntervalSecs => "heartbeat_interval_secs"
  | heartbeatTimeoutSecs => "heartbeat_timeout_secs"
  | clientReadTimeoutSecs => "client_read_timeout_secs"
  | compressionThreshold => "compression_threshold"
  | diffChunkSize => "diff_chunk_size"
  | diffMinBlockSize => "diff_min_block_size"
  | diffMinSavingsRatio => "diff_min_savings_ratio"
  | incrementalUplink => "incremental_uplink"
  | outboundQueueBytes => "outbound_queue_bytes"
  | tcpSendBufferBytes => "tcp_send_buffer_bytes"
  | imageRecode => "image_recode"
  | imageRecodeCodec => "image_recode_codec"
  | imageRecodeQuality => "image_recode_quality"
  | imageRecodeMinBytes => "image_recode_min_bytes"
  | audioForward => "audio_forward"
  | audioPerApp => "audio_per_app"
  | audioBitrateKbps => "audio_bitrate_kbps"
  | audioRecordCommand => "audio_record_command"
  | audioPlayCommand => "audio_play_command"
  | flowControl => "flow_control"
  | flowPauseBytes => "flow_pause_bytes"
  | flowResumeBytes => "flow_resume_bytes"

/-- The type of a field. -/
abbrev kind : Key → Kind
  | clientRelay | clientToken | clientX11 => .string
  | clientDisplay => .uint 16
  | serverListen | serverToken => .string
  | serverX11Port => .uint 16
  | sshHost | sshUser | sshIdentity | sshToken | sshX11 => .string
  | sshPort | sshRelayPort | sshDisplay => .uint 16
  | sshReconnect => .boolean
  | heartbeatIntervalSecs | heartbeatTimeoutSecs | clientReadTimeoutSecs => .uint 64
  | compressionThreshold | diffChunkSize | diffMinBlockSize => .uint 64
  | diffMinSavingsRatio => .float
  | incrementalUplink => .boolean
  | outboundQueueBytes | tcpSendBufferBytes => .uint 64
  | imageRecode => .boolean
  | imageRecodeCodec => .string
  | imageRecodeQuality => .uint 8
  | imageRecodeMinBytes => .uint 64
  | audioForward | audioPerApp => .boolean
  | audioBitrateKbps => .uint 32
  | audioRecordCommand | audioPlayCommand => .argv
  | flowControl => .boolean
  | flowPauseBytes | flowResumeBytes => .uint 64

abbrev type (k : Key) : Type := k.kind.type

/-- The path of the key in the file. -/
def path (k : Key) : String := k.sectionOf.name ++ "." ++ k.name

/-- `all_field_keys`. -/
def all : List Key :=
  Section.client.fields ++ Section.server.fields ++ Section.ssh.fields ++ Section.runtime.fields

theorem mem_all (k : Key) : k ∈ all := by
  cases k <;> decide

theorem nodup_all : all.Nodup := by decide

theorem mem_fields (k : Key) (s : Section) : k ∈ s.fields ↔ k.sectionOf = s := by
  cases s <;> cases k <;> decide

end Key

/-- The keys of one section have different names. -/
theorem Section.names_nodup (s : Section) : (s.fields.map Key.name).Nodup := by
  cases s <;> decide

theorem Key.eq_of_name {k k' : Key} (hsection : k.sectionOf = k'.sectionOf) (hname : k.name = k'.name) : k = k' := by
  have hk : k ∈ k'.sectionOf.fields := (Key.mem_fields k _).mpr hsection
  have hk' : k' ∈ k'.sectionOf.fields := (Key.mem_fields k' _).mpr rfl
  exact List.inj_on_of_nodup_map (Section.names_nodup _) hk hk' hname

/-- `GuiConfig`. -/
abbrev GuiConfig := (k : Key) → Option k.type

namespace GuiConfig

/-- `GuiConfig::default`. -/
def default : GuiConfig := fun _ => none

/-- One field is set or cleared. -/
def set (cfg : GuiConfig) (k : Key) (v : Option k.type) : GuiConfig := Function.update cfg k v

@[simp] theorem set_self (cfg : GuiConfig) (k : Key) (v : Option k.type) : cfg.set k v k = v := by
  unfold set
  exact Function.update_self ..

theorem set_of_ne (cfg : GuiConfig) {k k' : Key} (h : k' ≠ k) (v : Option k.type) : cfg.set k v k' = cfg k' := by
  unfold set
  exact Function.update_of_ne h ..

/-- Every value can be held by the file. -/
def Storable (cfg : GuiConfig) : Prop := ∀ k v, cfg k = some v → k.kind.Storable v

/-- The one field that is set. -/
theorem eq_of_set_default {k k' : Key} {v : k.type} {v' : k'.type} (h : default.set k (some v) k' = some v') :
    k' = k := by
  by_contra hne
  rw [set_of_ne _ hne] at h
  cases h

/-- The ratio as a number; a float that is none has no place in the model of `RuntimeConfig`. -/
def ratioOf : F64 → Option ℚ
  | .finite q _ => some q
  | _ => none

/-- `image_recode_codec` as the sessions take it. -/
def codecOf : Option String → Codec
  | some "png" => .png
  | some "jpeg" => .jpeg
  | _ => RuntimeConfig.default.imageRecodeCodec

/-- The ratio that a session runs with. -/
def ratio (cfg : GuiConfig) : Option ℚ :=
  ((cfg .diffMinSavingsRatio).map ratioOf).getD (some RuntimeConfig.default.diffMinSavingsRatio)

/-- What a session runs with, given the ratio. -/
def runtimeOf (cfg : GuiConfig) (ratio : ℚ) : RuntimeConfig :=
  let defaults := RuntimeConfig.default
  let secs (v : Option (BitVec 64)) (d : Nat) : Nat := (v.map BitVec.toNat).getD d
  { heartbeatInterval := secs (cfg .heartbeatIntervalSecs) defaults.heartbeatInterval
    heartbeatTimeout := secs (cfg .heartbeatTimeoutSecs) defaults.heartbeatTimeout
    clientReadTimeout := secs (cfg .clientReadTimeoutSecs) defaults.clientReadTimeout
    compressionThreshold := secs (cfg .compressionThreshold) defaults.compressionThreshold
    diffChunkSize := secs (cfg .diffChunkSize) defaults.diffChunkSize
    diffMinBlockSize := secs (cfg .diffMinBlockSize) defaults.diffMinBlockSize
    diffMinSavingsRatio := ratio
    incrementalUplink := (cfg .incrementalUplink).getD defaults.incrementalUplink
    outboundQueueBytes := secs (cfg .outboundQueueBytes) defaults.outboundQueueBytes
    tcpSendBufferBytes := ((cfg .tcpSendBufferBytes).map BitVec.toNat).or defaults.tcpSendBufferBytes
    imageRecode := (cfg .imageRecode).getD defaults.imageRecode
    imageRecodeCodec := codecOf (cfg .imageRecodeCodec)
    imageRecodeQuality := ((cfg .imageRecodeQuality).map UInt8.ofBitVec).getD defaults.imageRecodeQuality
    imageRecodeMinBytes := secs (cfg .imageRecodeMinBytes) defaults.imageRecodeMinBytes
    audioForward := (cfg .audioForward).getD defaults.audioForward
    audioPerApp := (cfg .audioPerApp).getD defaults.audioPerApp
    audioBitrateKbps := ((cfg .audioBitrateKbps).map UInt32.ofBitVec).getD defaults.audioBitrateKbps
    audioRecordCommand := (cfg .audioRecordCommand).or defaults.audioRecordCommand
    audioPlayCommand := (cfg .audioPlayCommand).or defaults.audioPlayCommand
    flowControl := (cfg .flowControl).getD defaults.flowControl
    flowPauseBytes := secs (cfg .flowPauseBytes) defaults.flowPauseBytes
    flowResumeBytes := secs (cfg .flowResumeBytes) defaults.flowResumeBytes }

/-- `to_runtime`. -/
def toRuntime (cfg : GuiConfig) : Option RuntimeConfig := cfg.ratio.map cfg.runtimeOf

end GuiConfig

end RemoteX11.Gui
