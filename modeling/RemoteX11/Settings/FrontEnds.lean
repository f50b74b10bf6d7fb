/-
  One configuration file, two programs that start sessions from it (`commands/client.rs` and `commands/ssh.rs`
  of the command line; `app/actions.rs`, `backend.rs`, `launcher/session.rs` and `launcher/mod.rs` of the GUI).

  What a section says is a `GuiConfig`, and the command line without options reads the same keys. The
  environment is read with the options. The first free port of the system is the parameter `freePort`.

  A page of the GUI starts its session from the texts that it shows, over the configuration that was loaded
  (`startConfig`): a text that is blank is none, and the switch for the rebuilding of the tunnel shows "false"
  where the file says nothing. `client_agrees_iff` and `ssh_agrees_iff` say for which files a page that has
  just been opened and the command line start the same session. The command line hands the connector the
  display of its options alone, so a display that the file fixes is asked for as display 0.
-/
import RemoteX11.Client.Connector
import RemoteX11.Gui.Pages

namespace RemoteX11.Settings

open RemoteX11.Lib RemoteX11.Lib.Text RemoteX11.Protocol RemoteX11.Gui

/-- `X11_ADDR`, `DEFAULT_PORT`, `DEFAULT_RELAY_PORT` and `LOCAL_BIND_BASE`. -/
def x11Addr : String := "127.0.0.1:6000"
def defaultSshPort : BitVec 16 := 22
def defaultRelayPort : BitVec 16 := 7000
def localBindBase : Nat := 17000

/-! ## The runtime -/

/-- The `[runtime]` section as the command line reads it; `ratio` is the number that its float stands for. -/
def runtimeFile (cfg : GuiConfig) (ratio : ℚ) : RuntimeFileConfig where
  heartbeatIntervalSecs := (cfg .heartbeatIntervalSecs).map BitVec.toNat
  heartbeatTimeoutSecs := (cfg .heartbeatTimeoutSecs).map BitVec.toNat
  clientReadTimeoutSecs := (cfg .clientReadTimeoutSecs).map BitVec.toNat
  compressionThreshold := (cfg .compressionThreshold).map BitVec.toNat
  diffChunkSize := (cfg .diffChunkSize).map BitVec.toNat
  diffMinBlockSize := (cfg .diffMinBlockSize).map BitVec.toNat
  diffMinSavingsRatio := (cfg .diffMinSavingsRatio).map fun _ => ratio
  incrementalUplink := cfg .incrementalUplink
  outboundQueueBytes := (cfg .outboundQueueBytes).map BitVec.toNat
  tcpSendBufferBytes := (cfg .tcpSendBufferBytes).map BitVec.toNat
  imageRecode := cfg .imageRecode
  imageRecodeCodec := cfg .imageRecodeCodec
  imageRecodeQuality := (cfg .imageRecodeQuality).map UInt8.ofBitVec
  imageRecodeMinBytes := (cfg .imageRecodeMinBytes).map BitVec.toNat
  audioForward := cfg .audioForward
  audioPerApp := cfg .audioPerApp
  audioBitrateKbps := (cfg .audioBitrateKbps).map UInt32.ofBitVec
  audioRecordCommand := cfg .audioRecordCommand
  audioPlayCommand := cfg .audioPlayCommand
  flowControl := cfg .flowControl
  flowPauseBytes := (cfg .flowPauseBytes).map BitVec.toNat
  flowResumeBytes := (cfg .flowResumeBytes).map BitVec.toNat

/-- Both run with the same parameters. -/
theorem toRuntime_runtimeFile {cfg : GuiConfig} {ratio : ℚ} (h : cfg.ratio = some ratio) :
    (runtimeFile cfg ratio).toRuntime = cfg.runtimeOf ratio := by
  have hratio : ((cfg .diffMinSavingsRatio).map fun _ => ratio).getD RuntimeConfig.default.diffMinSavingsRatio =
      ratio := by
    unfold GuiConfig.ratio at h
    cases hset : cfg .diffMinSavingsRatio with
    | none =>
      rw [hset] at h
      exact Option.some.inj h
    | some v => rfl
  have horElse : ∀ {α : Type} (a b : Option α), (a <|> b) = a.or b := by
    intro α a b
    cases a <;> rfl
  unfold RuntimeFileConfig.toRuntime GuiConfig.runtimeOf runtimeFile
  simp only [hratio, horElse]
  rfl

/-! ## The connector -/

/-- What `LocalConnector::new` and `with_runtime` are given. -/
structure ConnectorArgs where
  relayAddr : String
  authToken : String
  localX11Addr : String
  display : Option (BitVec 16)
  autoDisplay : Bool
  runtime : RuntimeConfig

/-- The request for a new session; nothing else of the profile `rt` enters it. -/
def ConnectorArgs.request (a : ConnectorArgs) (rt : Data.RuntimeConfig) (cookie : Bytes) : Result Frame :=
  Client.Connector.newSessionFrame
    ⟨a.relayAddr, a.authToken, a.display.map UInt16.ofBitVec, a.autoDisplay, 10, rt⟩ cookie

/-- Two connectors do the same. -/
structure ConnectorArgs.Alike (a b : ConnectorArgs) : Prop where
  relayAddr : a.relayAddr = b.relayAddr
  authToken : a.authToken = b.authToken
  localX11Addr : a.localX11Addr = b.localX11Addr
  runtime : a.runtime = b.runtime
  request : ∀ rt cookie, a.request rt cookie = b.request rt cookie

/-- The tunnel of an SSH session. -/
structure TunnelSpec where
  host : String
  port : BitVec 16
  user : Option String
  identity : Option String
  relayPort : BitVec 16
  localBindPort : Nat
  deriving DecidableEq

/-- What an SSH session is started with. -/
structure SshStart where
  tunnel : TunnelSpec
  connector : ConnectorArgs
  reconnect : Bool

/-- `pick_local_bind_port`, the same in both programs. -/
def pickLocalBindPort (autoDisplay : Bool) (display : BitVec 16) (freePort : Nat) : Nat :=
  if autoDisplay then freePort else min (localBindBase + display.toNat) 65535

/-! ## The command line -/

namespace Cli

/-- `TOKEN_REQUIRED_MSG`. -/
def tokenRequiredMsg : String := "Missing auth token. Use --token, RX11_TOKEN env var, or set it in config file"

def orError (value : Option String) (text : String) : Except String String := value.elim (.error text) .ok

/-- The options of `rx11 client`. -/
structure ClientArgs where
  relay : Option String := none
  token : Option String := none
  x11 : Option String := none
  display : Option (BitVec 16) := none
  auto : Option Bool := none

/-- `client`: the connector that it runs. -/
def client (args : ClientArgs) (cfg : GuiConfig) (ratio : ℚ) : Except String ConnectorArgs := do
  let relay ← orError (args.relay.or (cfg .clientRelay))
    "Missing relay server address. Use --relay or set it in config file"
  let x11 := (args.x11.or (cfg .clientX11)).getD x11Addr
  let token ← orError (args.token.or (cfg .clientToken)) tokenRequiredMsg
  let autoDisplay := args.auto.getD true && args.display.isNone && (cfg .clientDisplay).isNone
  let runtime := (runtimeFile cfg ratio).toRuntime
  return ⟨relay, token, x11, args.display, autoDisplay, runtime⟩

/-- The options of `rx11 ssh`. -/
structure SshArgs where
  host : Option String := none
  port : Option (BitVec 16) := none
  user : Option String := none
  identity : Option String := none
  token : Option String := none
  relayPort : Option (BitVec 16) := none
  x11 : Option String := none
  display : Option (BitVec 16) := none
  auto : Option Bool := none

/-- `ssh`, up to the tunnel; `inUse` says of a port whether something answers there. -/
def ssh (args : SshArgs) (cfg : GuiConfig) (ratio : ℚ) (freePort : Nat) (inUse : Nat → Bool) :
    Except String SshStart := do
  let host ← orError (args.host.or (cfg .sshHost))
    "Missing remote server address. Use --host or set it in config file"
  let port := (args.port.or (cfg .sshPort)).getD defaultSshPort
  let relayPort := (args.relayPort.or (cfg .sshRelayPort)).getD defaultRelayPort
  let x11 := (args.x11.or (cfg .sshX11)).getD x11Addr
  let autoDisplay := args.auto.getD true && args.display.isNone && (cfg .sshDisplay).isNone
  let token ← orError (args.token.or (cfg .sshToken)) tokenRequiredMsg
  let user := args.user.or (cfg .sshUser)
  let identity := args.identity.or (cfg .sshIdentity)
  let localBindPort := pickLocalBindPort autoDisplay ((args.display.or (cfg .sshDisplay)).getD 0) freePort
  if !autoDisplay && inUse localBindPort then
    throw (s!"Port {localBindPort} is already in use. Another rx11 ssh instance may be running, " ++
      "or use a different display (-d) to pick another port")
  let runtime := (runtimeFile cfg ratio).toRuntime
  return {
    tunnel := ⟨host, port, user, identity, relayPort, localBindPort⟩
    connector := ⟨s!"127.0.0.1:{localBindPort}", token, x11, args.display, autoDisplay, runtime⟩
    reconnect := (cfg .sshReconnect).getD true }

end Cli

/-! ## The GUI -/

namespace Launcher

/-- `required`. -/
def required (value : Option String) (field what : String) : Except String String :=
  match value with
  | some v => if isBlank v then .error s!"未配置 {field}（{what}）" else .ok v
  | none => .error s!"未配置 {field}（{what}）"

/-- `require_non_empty`. -/
def requireNonEmpty (value field what : String) : Except String Unit :=
  if isBlank value then .error s!"{field} 不能为空（{what}）" else .ok ()

structure ClientParams where
  relay : String
  token : String
  x11 : String
  display : Option (BitVec 16)
  auto : Bool

/-- `client_from_config`. -/
def clientFromConfig (cfg : GuiConfig) : Except String ClientParams := do
  let relay ← required (cfg .clientRelay) "client.relay" "中继服务器地址"
  let token ← required (cfg .clientToken) "client.token" "客户端 token"
  let display := cfg .clientDisplay
  return ⟨relay, token, (cfg .clientX11).getD x11Addr, display, display.isNone⟩

/-- `start_client`: the connector that it spawns. -/
def startClient (params : ClientParams) (runtime : RuntimeConfig) : Except String ConnectorArgs := do
  requireNonEmpty params.relay "client.relay" "中继服务器地址"
  requireNonEmpty params.token "client.token" "客户端 token"
  return ⟨params.relay, params.token, params.x11, params.display, params.auto, runtime⟩

structure SshParams where
  host : String
  port : BitVec 16
  user : Option String
  identity : Option String
  token : String
  relayPort : BitVec 16
  x11 : String
  display : Option (BitVec 16)
  auto : Bool
  reconnect : Bool

/-- `ssh_from_config`. -/
def sshFromConfig (cfg : GuiConfig) : Except String SshParams := do
  let host ← required (cfg .sshHost) "ssh.host" "SSH 主机"
  let token ← required (cfg .sshToken) "ssh.token" "隧道 token"
  let display := cfg .sshDisplay
  return {
    host := host
    port := (cfg .sshPort).getD defaultSshPort
    user := cfg .sshUser
    identity := cfg .sshIdentity
    token := token
    relayPort := (cfg .sshRelayPort).getD defaultRelayPort
    x11 := (cfg .sshX11).getD x11Addr
    display := display
    auto := display.isNone
    reconnect := (cfg .sshReconnect).getD true }

/-- `start_ssh`, up to the tunnel. -/
def startSsh (params : SshParams) (runtime : RuntimeConfig) (freePort : Nat) : Except String SshStart := do
  requireNonEmpty params.host "ssh.host" "SSH 主机"
  requireNonEmpty params.token "ssh.token" "隧道 token"
  let localBindPort := pickLocalBindPort params.auto (params.display.getD 0) freePort
  let localAddr := s!"127.0.0.1:{localBindPort}"
  return {
    tunnel := ⟨params.host, params.port, params.user, params.identity, params.relayPort, localBindPort⟩
    connector := ⟨localAddr, params.token, params.x11, params.display, params.auto, runtime⟩
    reconnect := params.reconnect }

/-- What follows in `start` of the backend for a client, and for an SSH session. -/
def clientOf (cfg : GuiConfig) (ratio : ℚ) : Except String ConnectorArgs := do
  startClient (← clientFromConfig cfg) (cfg.runtimeOf ratio)

def sshOf (cfg : GuiConfig) (ratio : ℚ) (freePort : Nat) : Except String SshStart := do
  startSsh (← sshFromConfig cfg) (cfg.runtimeOf ratio) freePort

/-- The configuration in `start` of the backend, for the values that `start_role` sends. -/
def startConfig (lib : Library) (s : App) (role : FormRole) : GuiConfig :=
  applyFlat lib s.loaded (s.mergedValues role.page)

/-- A client session as its page starts it. -/
def client (lib : Library) (s : App) (ratio : ℚ) : Except String ConnectorArgs :=
  clientOf (startConfig lib s .client) ratio

/-- An SSH session as its page starts it. -/
def ssh (lib : Library) (s : App) (ratio : ℚ) (freePort : Nat) : Except String SshStart :=
  sshOf (startConfig lib s .ssh) ratio freePort

end Launcher

/-! ## What a page sends -/

section Opened

variable {lib : Library} {file : File} {cfg : GuiConfig} {ratio : ℚ}

/-- The value, unless its text is blank. -/
def unblank (lib : Library) (cfg : GuiConfig) (k : Key) : Option k.type :=
  (cfg k).filter fun v => !isBlank (k.kind.format lib v)

/-- A field whose text is sent as it is known of the file, or not at all, is read as it was. -/
theorem readField_known (hlib : lib.Faithful) (k : Key) :
    (((cfg k).map (k.kind.format lib)).bind (readField lib k)).getD (cfg k) = unblank lib cfg k := by
  unfold unblank
  cases hset : cfg k with
  | none => rfl
  | some v =>
    rw [Option.map_some, Option.bind_some]
    cases hblank : isBlank (k.kind.format lib v) with
    | true => simp [readField_of_blank hblank, hblank, Option.filter]
    | false =>
      rw [readField_format_of_not_blank hlib hblank]
      by_cases hclean : k.kind.Clean v <;> simp [hclean, hblank, Option.filter]

/-- The form once its file was loaded. -/
theorem shown_start (hload : load lib file = .ok cfg) {k : Key} (hk : k.page.isSome) :
    (App.start lib file).shown k =
      k.widget.setValue (((cfg k).map (k.kind.format lib)).getD "") k.widget.initial := by
  rw [App.start, App.loadConfig_ok hload, App.setAll_shown k hk, get_flatValues]
  rfl

theorem start_known (hload : load lib file = .ok cfg) :
    (App.start lib file).loaded = cfg ∧ (App.start lib file).fileValues = flatValues lib cfg := by
  rw [App.start, App.loadConfig_ok hload]
  exact ⟨rfl, rfl⟩

/-- A field that is sent. -/
theorem Launcher.startConfig_field (hload : load lib file = .ok cfg) (role : FormRole) (k : Key) :
    startConfig lib (App.start lib file) role k =
      ((if k ∈ role.page.fields then some ((App.start lib file).shown k)
        else (cfg k).map (k.kind.format lib)).bind (readField lib k)).getD (cfg k) := by
  obtain ⟨hloaded, hvalues⟩ := start_known hload
  rw [startConfig, applyFlat, applyFlatChecked_field (App.mergedValues_nodup (hvalues ▸ flatValues_nodup)),
    App.get_mergedValues, hvalues, get_flatValues, hloaded]

/-- **The session starts with what the file says**, but for what is blank, and but for the switch. -/
theorem Launcher.startConfig_eq (hlib : lib.Faithful) (hload : load lib file = .ok cfg) {role : FormRole} {k : Key}
    (hk : k ∈ role.page.fields → k.widget = .text) :
    startConfig lib (App.start lib file) role k = unblank lib cfg k := by
  rw [startConfig_field hload, ← readField_known hlib]
  by_cases hfield : k ∈ role.page.fields
  · have hpage : k.page.isSome := by rw [Key.page_eq_some.mpr hfield]; rfl
    rw [if_pos hfield, shown_start hload hpage, hk hfield]
    -- a text that is not known is empty in the form, and read as none
    cases hset : cfg k with
    | none => simp [Widget.setValue, readField_of_blank (show isBlank "" = true by decide)]
    | some v => rfl
  · rw [if_neg hfield]

/-- The switch shows "false" where the file says nothing. -/
theorem Launcher.startConfig_reconnect (hload : load lib file = .ok cfg) :
    startConfig lib (App.start lib file) .ssh .sshReconnect = some ((cfg .sshReconnect).getD false) := by
  have hfield : Key.sshReconnect ∈ FormRole.ssh.page.fields := by decide
  have htrue : readField lib .sshReconnect "true" = some (some true) := rfl
  have hfalse : readField lib .sshReconnect "false" = some (some false) := rfl
  rw [startConfig_field hload, if_pos hfield, shown_start hload (by decide), Option.bind_some]
  cases hset : cfg .sshReconnect with
  | none => exact congrArg (Option.getD · none) hfalse
  | some b =>
    cases b with
    | false => exact congrArg (Option.getD · (some false)) hfalse
    | true => exact congrArg (Option.getD · (some true)) htrue

/-- The rest of the file is sent as it is. -/
theorem unblank_of_ne (hlib : lib.Faithful) {k : Key} (hk : k.kind ≠ .string) : unblank lib cfg k = cfg k := by
  unfold unblank
  cases hset : cfg k with
  | none => rfl
  | some v => simp [Option.filter, Kind.isBlank_format hlib hk v]

/-- A codec that is blank is one that is not known. -/
theorem codecOf_unblank :
    GuiConfig.codecOf (unblank lib cfg .imageRecodeCodec) = GuiConfig.codecOf (cfg .imageRecodeCodec) := by
  unfold unblank
  cases hset : cfg .imageRecodeCodec with
  | none => rfl
  | some v =>
    cases hblank : isBlank v with
    | false => simp [Option.filter, Kind.format, hblank]
    | true =>
      have hpng : v ≠ "png" := by
        rintro rfl
        exact absurd hblank (by decide)
      have hjpeg : v ≠ "jpeg" := by
        rintro rfl
        exact absurd hblank (by decide)
      simp [Option.filter, Kind.format, hblank, GuiConfig.codecOf, hpng, hjpeg]

/-- The session runs with the parameters of the file. -/
theorem Launcher.runtimeOf_startConfig (hlib : lib.Faithful) (hload : load lib file = .ok cfg) (role : FormRole) :
    (startConfig lib (App.start lib file) role).runtimeOf ratio = cfg.runtimeOf ratio := by
  have hfield : ∀ k : Key, k.page = some .runtime →
      startConfig lib (App.start lib file) role k = unblank lib cfg k := by
    intro k hk
    refine startConfig_eq hlib hload fun hmem => ?_
    -- no role has a page with a field of the runtime
    have hpage := (Key.page_eq_some.mpr hmem).symm.trans hk
    cases role <;> cases hpage
  have hsame : ∀ k : Key, k.page = some .runtime → k.kind ≠ .string →
      startConfig lib (App.start lib file) role k = cfg k :=
    fun k hk hkind => (hfield k hk).trans (unblank_of_ne hlib hkind)
  unfold GuiConfig.runtimeOf
  rw [hfield .imageRecodeCodec (by decide), codecOf_unblank]
  simp (disch := decide) only [hsame]

end Opened

/-! ## Where they agree -/

/-- A text that is set and has something in it. -/
def Filled (value : Option String) : Prop := ∃ v, value = some v ∧ isBlank v = false

/-- A text that is not set, or has something in it. -/
def NotBlank (value : Option String) : Prop := ∀ v, value = some v → isBlank v = false

/-- A session can be fixed to display 0 in either program. -/
def FreeOrZero (display : Option (BitVec 16)) : Prop := display = none ∨ display = some 0

theorem Launcher.required_ok_iff {value : Option String} {field what v : String} :
    required value field what = .ok v ↔ value = some v ∧ isBlank v = false := by
  unfold required
  cases value with
  | none => simp
  | some u =>
    by_cases hblank : isBlank u = true
    · simp only [hblank, if_true, reduceCtorEq, Option.some.injEq, false_iff, not_and]
      rintro rfl
      simp [hblank]
    · simp only [hblank, Bool.false_eq_true, if_false, Except.ok.injEq, Option.some.injEq]
      constructor
      · rintro rfl
        exact ⟨rfl, by simpa using hblank⟩
      · exact fun h => h.1

theorem Launcher.requireNonEmpty_of_not {value field what : String} (h : isBlank value = false) :
    requireNonEmpty value field what = .ok () := by
  simp [requireNonEmpty, h]

/-- A display that the file fixes reaches the relay from the GUI, and from the command line as display 0. -/
theorem request_agrees_iff {a b : ConnectorArgs} {display : Option (BitVec 16)} (ha : a.display = display)
    (haAuto : a.autoDisplay = display.isNone) (hb : b.display = none) (hbAuto : b.autoDisplay = display.isNone) :
    (∀ rt cookie, a.request rt cookie = b.request rt cookie) ↔ FreeOrZero display := by
  unfold ConnectorArgs.request Client.Connector.newSessionFrame
  rw [ha, haAuto, hb, hbAuto]
  cases display with
  | none => simp [FreeOrZero]
  | some d =>
    have hzero : DisplayNumber.new 0 = .ok ⟨0⟩ := rfl
    simp only [FreeOrZero, Option.isNone_some, Bool.false_eq_true, if_false, Option.map_some, Option.getD_some,
      Option.map_none, Option.getD_none, hzero, reduceCtorEq, false_or, Option.some.injEq]
    constructor
    · intro h
      have hframe := h ⟨true, true, true, true, true, 0⟩ []
      unfold DisplayNumber.new at hframe
      split at hframe
      · cases hframe
      · have hd : UInt16.ofBitVec d = 0 := by
          have hok := Except.ok.inj hframe
          injection hok with hjson
          injection hjson with hcreate
          injection hcreate with hdisplay
          injection hdisplay
        exact congrArg UInt16.toBitVec hd
    · rintro rfl rt cookie
      rfl

/-- When the GUI starts a client session, and with which connector. -/
theorem Launcher.clientOf_ok_iff {cfg : GuiConfig} {ratio : ℚ} {g : ConnectorArgs} :
    clientOf cfg ratio = .ok g ↔ ∃ relay token, (cfg .clientRelay = some relay ∧ isBlank relay = false) ∧
      (cfg .clientToken = some token ∧ isBlank token = false) ∧
      g = ⟨relay, token, (cfg .clientX11).getD x11Addr, cfg .clientDisplay, (cfg .clientDisplay).isNone,
        cfg.runtimeOf ratio⟩ := by
  simp only [clientOf, clientFromConfig, startClient, bind, Except.bind, pure, Except.pure]
  cases hrelay : required (cfg .clientRelay) "client.relay" "中继服务器地址" with
  | error e =>
    simp only [reduceCtorEq, false_iff]
    rintro ⟨relay, -, h, -⟩
    rw [required_ok_iff.mpr h] at hrelay
    cases hrelay
  | ok relay =>
    have hrelayFilled := required_ok_iff.mp hrelay
    cases htoken : required (cfg .clientToken) "client.token" "客户端 token" with
    | error e =>
      simp only [reduceCtorEq, false_iff]
      rintro ⟨-, token, -, h, -⟩
      rw [required_ok_iff.mpr h] at htoken
      cases htoken
    | ok token =>
      have htokenFilled := required_ok_iff.mp htoken
      simp only [requireNonEmpty_of_not hrelayFilled.2, requireNonEmpty_of_not htokenFilled.2,
        Except.ok.injEq]
      constructor
      · rintro rfl
        exact ⟨relay, token, hrelayFilled, htokenFilled, rfl⟩
      · rintro ⟨relay', token', hrelay', htoken', rfl⟩
        obtain rfl := Option.some.inj (hrelayFilled.1.symm.trans hrelay'.1)
        obtain rfl := Option.some.inj (htokenFilled.1.symm.trans htoken'.1)
        rfl

/-- The command line without options takes what the file says. -/
theorem Cli.client_eq {cfg : GuiConfig} {ratio : ℚ} {relay token : String}
    (hrelay : cfg .clientRelay = some relay) (htoken : cfg .clientToken = some token) :
    client {} cfg ratio = .ok ⟨relay, token, (cfg .clientX11).getD x11Addr, none,
      (cfg .clientDisplay).isNone, (runtimeFile cfg ratio).toRuntime⟩ := by
  simp [client, orError, hrelay, htoken, bind, Except.bind, pure, Except.pure]

/-- A text, unless it is blank. -/
def present (value : Option String) : Option String := value.filter fun v => !isBlank v

theorem present_eq_some {value : Option String} {v : String} :
    present value = some v ↔ value = some v ∧ isBlank v = false := by
  simp [present, Option.filter_eq_some_iff]

/-- Whether a text is filled does not depend on what is blank. -/
theorem present_filled {value : Option String} {v : String} :
    present value = some v ∧ isBlank v = false ↔ value = some v ∧ isBlank v = false := by
  rw [present_eq_some, and_assoc, and_self]

theorem present_eq_iff {value : Option String} : present value = value ↔ NotBlank value := by
  cases value with
  | none => simp [present, NotBlank]
  | some v => simp [present, NotBlank, Option.filter]

/-- So it is with a default that is not blank. -/
theorem present_getD_iff {value : Option String} {default : String} (hdefault : isBlank default = false) :
    (present value).getD default = value.getD default ↔ NotBlank value := by
  cases value with
  | none => simp [present, NotBlank]
  | some v =>
    cases hblank : isBlank v with
    | false => simp [present, NotBlank, Option.filter, hblank]
    | true =>
      have hne : default ≠ v := by
        rintro rfl
        exact absurd (hblank.symm.trans hdefault) (by decide)
      simp [present, NotBlank, Option.filter, hblank, hne]

section Client

variable {lib : Library} {file : File} {cfg : GuiConfig} {ratio : ℚ}

/-- The client session of a page that has just been opened. -/
theorem Launcher.client_ok_iff (hlib : lib.Faithful) (hload : load lib file = .ok cfg) {g : ConnectorArgs} :
    client lib (App.start lib file) ratio = .ok g ↔ ∃ relay token,
      (cfg .clientRelay = some relay ∧ isBlank relay = false) ∧
      (cfg .clientToken = some token ∧ isBlank token = false) ∧
      g = ⟨relay, token, (present (cfg .clientX11)).getD x11Addr, cfg .clientDisplay,
        (cfg .clientDisplay).isNone, cfg.runtimeOf ratio⟩ := by
  have hrelay : startConfig lib (App.start lib file) .client .clientRelay = present (cfg .clientRelay) :=
    startConfig_eq hlib hload fun _ => rfl
  have htoken : startConfig lib (App.start lib file) .client .clientToken = present (cfg .clientToken) :=
    startConfig_eq hlib hload fun _ => rfl
  have hx11 : startConfig lib (App.start lib file) .client .clientX11 = present (cfg .clientX11) :=
    startConfig_eq hlib hload fun _ => rfl
  have hdisplay : startConfig lib (App.start lib file) .client .clientDisplay = cfg .clientDisplay :=
    (startConfig_eq hlib hload fun _ => rfl).trans (unblank_of_ne hlib (by decide))
  rw [client, clientOf_ok_iff, hrelay, htoken, hx11, hdisplay, runtimeOf_startConfig hlib hload]
  simp only [present_filled]

/-- **The client session of a file** is the same in both programs, if and only if the file has a relay and a
    token for it, its address of the X server is not blank and it fixes no display but 0. -/
theorem client_agrees_iff (hlib : lib.Faithful) (hload : load lib file = .ok cfg)
    (hratio : cfg.ratio = some ratio) :
    (∃ g c, Launcher.client lib (App.start lib file) ratio = .ok g ∧ Cli.client {} cfg ratio = .ok c ∧
        g.Alike c) ↔
      Filled (cfg .clientRelay) ∧ Filled (cfg .clientToken) ∧ NotBlank (cfg .clientX11) ∧
        FreeOrZero (cfg .clientDisplay) := by
  have hx11 : (present (cfg .clientX11)).getD x11Addr = (cfg .clientX11).getD x11Addr ↔
      NotBlank (cfg .clientX11) := present_getD_iff (by decide)
  constructor
  · intro ⟨g, c, hg, hc, halike⟩
    obtain ⟨relay, token, hrelay, htoken, rfl⟩ := (Launcher.client_ok_iff hlib hload).mp hg
    rw [Cli.client_eq hrelay.1 htoken.1] at hc
    obtain rfl := Except.ok.inj hc
    exact ⟨⟨relay, hrelay⟩, ⟨token, htoken⟩, hx11.mp halike.localX11Addr,
      (request_agrees_iff rfl rfl rfl rfl).mp halike.request⟩
  · intro ⟨⟨relay, hrelay⟩, ⟨token, htoken⟩, hnotBlank, hdisplay⟩
    refine ⟨_, _, (Launcher.client_ok_iff hlib hload).mpr ⟨relay, token, hrelay, htoken, rfl⟩,
      Cli.client_eq hrelay.1 htoken.1, rfl, rfl, hx11.mpr hnotBlank, ?_,
      (request_agrees_iff rfl rfl rfl rfl).mpr hdisplay⟩
    exact (toRuntime_runtimeFile hratio).symm

/-- A file with what a client needs, whose relay has a blank behind it. -/
def relayFile : File :=
  .toml [("client", .table [("relay", .value (.string "relay:7000 ") ""), ("token", .value (.string "secret") ""),
    ("display", .value (.integer 0) "")])]

theorem client_agrees_iff_relayFile : ∃ cfg, load Library.coded relayFile = .ok cfg ∧ ∃ g c,
    Launcher.client Library.coded (App.start Library.coded relayFile) (1 / 10) = .ok g ∧
      Cli.client {} cfg (1 / 10) = .ok c ∧ g.Alike c := by
  obtain ⟨cfg, hload, hrelay, htoken, hx11, hdisplay, hratio⟩ : ∃ cfg, load Library.coded relayFile = .ok cfg ∧
      cfg .clientRelay = some "relay:7000 " ∧ cfg .clientToken = some "secret" ∧ cfg .clientX11 = none ∧
      cfg .clientDisplay = some 0 ∧ cfg.ratio = some (1 / 10) := ⟨_, rfl, rfl, rfl, rfl, rfl, rfl⟩
  exact ⟨cfg, hload, (client_agrees_iff Library.coded_faithful hload hratio).mpr
    ⟨⟨_, hrelay, by decide⟩, ⟨_, htoken, by decide⟩, by simp [NotBlank, hx11], .inr hdisplay⟩⟩

end Client

/-! ## SSH -/

/-- The session of an `[ssh]` section, for the display that the connector is given. -/
def sshStart (cfg : GuiConfig) (freePort : Nat) (host token : String) (display : Option (BitVec 16))
    (runtime : RuntimeConfig) : SshStart :=
  let localBindPort := pickLocalBindPort (cfg .sshDisplay).isNone ((cfg .sshDisplay).getD 0) freePort
  { tunnel := ⟨host, (cfg .sshPort).getD defaultSshPort, cfg .sshUser, cfg .sshIdentity,
      (cfg .sshRelayPort).getD defaultRelayPort, localBindPort⟩
    connector := ⟨s!"127.0.0.1:{localBindPort}", token, (cfg .sshX11).getD x11Addr, display,
      (cfg .sshDisplay).isNone, runtime⟩
    reconnect := (cfg .sshReconnect).getD true }

theorem Launcher.sshOf_ok_iff {cfg : GuiConfig} {ratio : ℚ} {freePort : Nat} {g : SshStart} :
    sshOf cfg ratio freePort = .ok g ↔ ∃ host token, (cfg .sshHost = some host ∧ isBlank host = false) ∧
      (cfg .sshToken = some token ∧ isBlank token = false) ∧
      g = sshStart cfg freePort host token (cfg .sshDisplay) (cfg.runtimeOf ratio) := by
  simp only [sshOf, sshFromConfig, startSsh, bind, Except.bind, pure, Except.pure]
  cases hhost : required (cfg .sshHost) "ssh.host" "SSH 主机" with
  | error e =>
    simp only [reduceCtorEq, false_iff]
    rintro ⟨host, -, h, -⟩
    rw [required_ok_iff.mpr h] at hhost
    cases hhost
  | ok host =>
    have hhostFilled := required_ok_iff.mp hhost
    cases htoken : required (cfg .sshToken) "ssh.token" "隧道 token" with
    | error e =>
      simp only [reduceCtorEq, false_iff]
      rintro ⟨-, token, -, h, -⟩
      rw [required_ok_iff.mpr h] at htoken
      cases htoken
    | ok token =>
      have htokenFilled := required_ok_iff.mp htoken
      simp only [requireNonEmpty_of_not hhostFilled.2, requireNonEmpty_of_not htokenFilled.2,
        Except.ok.injEq]
      constructor
      · rintro rfl
        exact ⟨host, token, hhostFilled, htokenFilled, rfl⟩
      · rintro ⟨host', token', hhost', htoken', rfl⟩
        obtain rfl := Option.some.inj (hhostFilled.1.symm.trans hhost'.1)
        obtain rfl := Option.some.inj (htokenFilled.1.symm.trans htoken'.1)
        rfl

/-- The local port of a session is free, or it is picked free. -/
def PortFree (cfg : GuiConfig) (freePort : Nat) (inUse : Nat → Bool) : Prop :=
  (cfg .sshDisplay).isNone = false → inUse (pickLocalBindPort false ((cfg .sshDisplay).getD 0) freePort) = false

/-- The command line without options: it does not start over a port that is in use. -/
theorem Cli.ssh_ok_iff {cfg : GuiConfig} {ratio : ℚ} {freePort : Nat} {inUse : Nat → Bool} {host token : String}
    {c : SshStart} (hhost : cfg .sshHost = some host) (htoken : cfg .sshToken = some token) :
    ssh {} cfg ratio freePort inUse = .ok c ↔ PortFree cfg freePort inUse ∧
      c = sshStart cfg freePort host token none (runtimeFile cfg ratio).toRuntime := by
  have hfree : PortFree cfg freePort inUse ↔ ((cfg .sshDisplay).isSome = true →
      inUse (pickLocalBindPort (cfg .sshDisplay).isNone ((cfg .sshDisplay).getD 0) freePort) = false) := by
    unfold PortFree
    cases cfg .sshDisplay <;> simp
  by_cases hport : PortFree cfg freePort inUse
  · have hstart : ssh {} cfg ratio freePort inUse =
        .ok (sshStart cfg freePort host token none (runtimeFile cfg ratio).toRuntime) := by
      simpa [ssh, sshStart, orError, hhost, htoken, bind, Except.bind, pure, Except.pure] using hfree.mp hport
    rw [hstart, Except.ok.injEq, eq_comm]
    exact (and_iff_right hport).symm
  · refine iff_of_false (fun h => ?_) fun h => hport h.1
    rw [hfree] at hport
    push Not at hport
    obtain ⟨hsome, hbusy⟩ := hport
    have hbusy : inUse (pickLocalBindPort (cfg .sshDisplay).isNone ((cfg .sshDisplay).getD 0) freePort) = true := by
      simpa using hbusy
    simp [ssh, orError, hhost, htoken, bind, Except.bind, pure, Except.pure, hsome, throw, throwThe,
      MonadExceptOf.throw] at h
    split at h
    · contradiction
    · rename_i hnot
      exact hnot hbusy

section Ssh

variable {lib : Library} {file : File} {cfg : GuiConfig} {ratio : ℚ} {freePort : Nat}

/-- The session of an `[ssh]` section, with the texts and the switch of a page that has just been opened. -/
def shownSsh (cfg : GuiConfig) (freePort : Nat) (host token : String) (runtime : RuntimeConfig) : SshStart :=
  let start := sshStart cfg freePort host token (cfg .sshDisplay) runtime
  { tunnel := { start.tunnel with user := present (cfg .sshUser), identity := present (cfg .sshIdentity) }
    connector := { start.connector with localX11Addr := (present (cfg .sshX11)).getD x11Addr }
    reconnect := (cfg .sshReconnect).getD false }

/-- The SSH session of a page that has just been opened. -/
theorem Launcher.ssh_ok_iff (hlib : lib.Faithful) (hload : load lib file = .ok cfg) {g : SshStart} :
    ssh lib (App.start lib file) ratio freePort = .ok g ↔ ∃ host token,
      (cfg .sshHost = some host ∧ isBlank host = false) ∧
      (cfg .sshToken = some token ∧ isBlank token = false) ∧
      g = shownSsh cfg freePort host token (cfg.runtimeOf ratio) := by
  have hhost : startConfig lib (App.start lib file) .ssh .sshHost = present (cfg .sshHost) :=
    startConfig_eq hlib hload fun _ => rfl
  have htoken : startConfig lib (App.start lib file) .ssh .sshToken = present (cfg .sshToken) :=
    startConfig_eq hlib hload fun _ => rfl
  have huser : startConfig lib (App.start lib file) .ssh .sshUser = present (cfg .sshUser) :=
    startConfig_eq hlib hload fun _ => rfl
  have hidentity : startConfig lib (App.start lib file) .ssh .sshIdentity = present (cfg .sshIdentity) :=
    startConfig_eq hlib hload fun _ => rfl
  -- the page has no widget for it
  have hx11 : startConfig lib (App.start lib file) .ssh .sshX11 = present (cfg .sshX11) :=
    startConfig_eq hlib hload fun hmem => absurd hmem (by decide)
  have hport : startConfig lib (App.start lib file) .ssh .sshPort = cfg .sshPort :=
    (startConfig_eq hlib hload fun _ => rfl).trans (unblank_of_ne hlib (by decide))
  have hrelayPort : startConfig lib (App.start lib file) .ssh .sshRelayPort = cfg .sshRelayPort :=
    (startConfig_eq hlib hload fun _ => rfl).trans (unblank_of_ne hlib (by decide))
  have hdisplay : startConfig lib (App.start lib file) .ssh .sshDisplay = cfg .sshDisplay :=
    (startConfig_eq hlib hload fun _ => rfl).trans (unblank_of_ne hlib (by decide))
  rw [ssh, sshOf_ok_iff, hhost, htoken, hdisplay, runtimeOf_startConfig hlib hload]
  simp only [present_filled, sshStart, shownSsh, huser, hidentity, hx11, hport, hrelayPort, hdisplay,
    startConfig_reconnect hload, Option.getD_some]

/-- **The SSH session of a file** is the same in both programs, if and only if the file has a host and a token
    for it, no text of it is blank, it says whether the tunnel is rebuilt, and it fixes no display but 0, and
    that one only while its port is free. -/
theorem ssh_agrees_iff {inUse : Nat → Bool} (hlib : lib.Faithful) (hload : load lib file = .ok cfg)
    (hratio : cfg.ratio = some ratio) :
    (∃ g c, Launcher.ssh lib (App.start lib file) ratio freePort = .ok g ∧
        Cli.ssh {} cfg ratio freePort inUse = .ok c ∧ g.tunnel = c.tunnel ∧ g.reconnect = c.reconnect ∧
        g.connector.Alike c.connector) ↔
      (Filled (cfg .sshHost) ∧ Filled (cfg .sshToken)) ∧
      (NotBlank (cfg .sshUser) ∧ NotBlank (cfg .sshIdentity) ∧ NotBlank (cfg .sshX11)) ∧
      (cfg .sshReconnect).isSome ∧
      (cfg .sshDisplay = none ∨ cfg .sshDisplay = some 0 ∧ inUse localBindBase = false) := by
  have hx11 : (present (cfg .sshX11)).getD x11Addr = (cfg .sshX11).getD x11Addr ↔ NotBlank (cfg .sshX11) :=
    present_getD_iff (by decide)
  have hport : FreeOrZero (cfg .sshDisplay) → (PortFree cfg freePort inUse ↔
      cfg .sshDisplay = none ∨ cfg .sshDisplay = some 0 ∧ inUse localBindBase = false) := by
    rintro (hnone | hzero)
    · simp [PortFree, hnone]
    · simp [PortFree, hzero, pickLocalBindPort, localBindBase]
  constructor
  · rintro ⟨g, c, hg, hc, htunnel, hreconnect, halike⟩
    obtain ⟨host, token, hhost, htoken, rfl⟩ := (Launcher.ssh_ok_iff hlib hload).mp hg
    obtain ⟨hfree, rfl⟩ := (Cli.ssh_ok_iff hhost.1 htoken.1).mp hc
    have hdisplay : FreeOrZero (cfg .sshDisplay) := (request_agrees_iff rfl rfl rfl rfl).mp halike.request
    have hreconnect : (cfg .sshReconnect).getD false = (cfg .sshReconnect).getD true := hreconnect
    refine ⟨⟨⟨host, hhost⟩, ⟨token, htoken⟩⟩, ⟨present_eq_iff.mp (congrArg TunnelSpec.user htunnel),
      present_eq_iff.mp (congrArg TunnelSpec.identity htunnel), hx11.mp halike.localX11Addr⟩, ?_,
      (hport hdisplay).mp hfree⟩
    cases hset : cfg .sshReconnect with
    | none => simp [hset] at hreconnect
    | some b => rfl
  · rintro ⟨⟨⟨host, hhost⟩, ⟨token, htoken⟩⟩, ⟨huser, hidentity, hnotBlank⟩, hset, hdisplay⟩
    have hzero : FreeOrZero (cfg .sshDisplay) := hdisplay.imp_right And.left
    refine ⟨_, _, (Launcher.ssh_ok_iff hlib hload).mpr ⟨host, token, hhost, htoken, rfl⟩,
      (Cli.ssh_ok_iff hhost.1 htoken.1).mpr ⟨(hport hzero).mpr hdisplay, rfl⟩, ?_, ?_, rfl, rfl,
      hx11.mpr hnotBlank, ?_, (request_agrees_iff rfl rfl rfl rfl).mpr hzero⟩
    · simp only [shownSsh, sshStart, present_eq_iff.mpr huser, present_eq_iff.mpr hidentity]
    · obtain ⟨b, hb⟩ := Option.isSome_iff_exists.mp hset
      simp only [shownSsh, sshStart, hb, Option.getD_some]
    · exact (toRuntime_runtimeFile hratio).symm

/-- A file with what a tunnel needs. -/
def tunnelFile : File :=
  .toml [("ssh", .table [("host", .value (.string "relay") ""), ("token", .value (.string "secret") ""),
    ("reconnect", .value (.boolean true) ""), ("display", .value (.integer 0) "")])]

theorem ssh_agrees_iff_tunnelFile : ∃ cfg, load Library.coded tunnelFile = .ok cfg ∧ ∃ g c,
    Launcher.ssh Library.coded (App.start Library.coded tunnelFile) (1 / 10) 40000 = .ok g ∧
      Cli.ssh {} cfg (1 / 10) 40000 (fun port => port == 22) = .ok c ∧ g.tunnel = c.tunnel ∧
      g.reconnect = c.reconnect ∧ g.connector.Alike c.connector := by
  obtain ⟨cfg, hload, hhost, htoken, huser, hidentity, hx11, hreconnect, hdisplay, hratio⟩ : ∃ cfg,
      load Library.coded tunnelFile = .ok cfg ∧ cfg .sshHost = some "relay" ∧ cfg .sshToken = some "secret" ∧
      cfg .sshUser = none ∧ cfg .sshIdentity = none ∧ cfg .sshX11 = none ∧ cfg .sshReconnect = some true ∧
      cfg .sshDisplay = some 0 ∧ cfg.ratio = some (1 / 10) := ⟨_, rfl, rfl, rfl, rfl, rfl, rfl, rfl, rfl, rfl⟩
  exact ⟨cfg, hload, (ssh_agrees_iff Library.coded_faithful hload hratio).mpr
    ⟨⟨⟨_, hhost, by decide⟩, ⟨_, htoken, by decide⟩⟩, by simp [NotBlank, huser, hidentity, hx11],
      by rw [hreconnect]; rfl, .inr ⟨hdisplay, by decide⟩⟩⟩

end Ssh

end RemoteX11.Settings
