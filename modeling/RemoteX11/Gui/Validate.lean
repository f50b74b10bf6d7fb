/-
  The checks of the GUI on a configuration (`settings/validate.rs`).

  `validate` looks at the fields that are set: each one alone, and three pairs when both are. The sessions run
  with what `toRuntime` makes of the configuration, where a field that is not set has its default. `WithinLimits`
  says of these values what `validate` asks of the fields, and `withinLimits_iff` when they satisfy it: the
  pairs with one field set must fit the default of the other.
-/
import RemoteX11.Gui.Config

namespace RemoteX11.Gui

open RemoteX11.Lib RemoteX11.Lib.Toml RemoteX11.Settings

structure ValidationIssue where
  field : String
  message : String
  deriving DecidableEq, Repr

/-! ## One field -/

/-- The issue of a value that is set, if there is one. -/
def issuesOf {α : Type} (field : String) (value : Option α) (complaint : α → Option String) :
    List ValidationIssue :=
  ((value.bind complaint).map fun message => ⟨field, message⟩).toList

def checkPort (field : String) (port : Option (BitVec 16)) : List ValidationIssue :=
  issuesOf field port fun p => if p = 0 then some "端口必须是 1-65535 之间的整数" else none

def checkDisplay (field : String) (display : Option (BitVec 16)) : List ValidationIssue :=
  issuesOf field display fun d =>
    if d.toNat > 255 then some ("display 必须在 0-255 之间（当前 " ++ toString d.toNat ++ "）") else none

def checkNonEmpty (field : String) (value : Option String) (what : String) : List ValidationIssue :=
  issuesOf field value fun v => if Text.isBlank v then some (what ++ "不能为空") else none

def checkHostPort (field : String) (value : Option String) : List ValidationIssue :=
  issuesOf field value fun v =>
    if Text.isBlank v then some "地址不能为空，格式为 host:port"
    else
      match Text.rsplitOnce ':' v with
      | some (host, port) =>
        if host = "" then some ("地址格式应为 host:port（当前 \"" ++ v ++ "\"）")
        else
          match Text.parseUint 16 port with
          | some p => if p = 0 then some ("端口必须是 1-65535 之间的整数（当前 \"" ++ v ++ "\"）") else none
          | none => some ("端口必须是 1-65535 之间的整数（当前 \"" ++ v ++ "\"）")
      | none => some ("地址格式应为 host:port（当前 \"" ++ v ++ "\"）")

/-- `check_min_u64` and `check_min_usize`. -/
def checkMin (field : String) (value : Option (BitVec 64)) (least : Nat) : List ValidationIssue :=
  issuesOf field value fun v =>
    if v.toNat < least then
      some ("值必须不小于 " ++ toString least ++ "（当前 " ++ toString v.toNat ++ "）")
    else none

def checkArgv (field : String) (argv : Option (List String)) : List ValidationIssue :=
  issuesOf field argv fun args =>
    if args.isEmpty || args.all Text.isBlank then
      some "命令参数不能为空（留空表示自动探测；填写时第一项必须是可执行文件名）"
    else none

def checkX11Port (field : String) (port : Option (BitVec 16)) : List ValidationIssue :=
  issuesOf field port fun p =>
    if p = 0 then some "X11 端口基数必须是 1-65280 之间的整数"
    else if p.toNat > 65535 - 255 then
      some "X11 端口基数不能超过 65280（每个 display 都要占用一个端口，需预留 256 个）"
    else none

/-- `(0.0..=1.0).contains`. -/
def inUnitRange : F64 → Bool
  | .finite q _ => 0 ≤ q && q ≤ 1
  | _ => false

def checkRatio (floats : FloatText) (field : String) (ratio : Option F64) : List ValidationIssue :=
  issuesOf field ratio fun x =>
    if inUnitRange x then none
    else some ("最小节省比例必须在 0.0-1.0 之间（当前 " ++ floats.format x ++ "）")

def checkCodec (field : String) (codec : Option String) : List ValidationIssue :=
  issuesOf field codec fun name =>
    if name ≠ "png" ∧ name ≠ "jpeg" then
      some ("图像重编码格式只能是 \"png\"（无损）或 \"jpeg\"（有损），当前 \"" ++ name ++ "\"")
    else none

def checkQuality (field : String) (quality : Option (BitVec 8)) : List ValidationIssue :=
  issuesOf field quality fun q =>
    if q = 0 ∨ q.toNat > 100 then some ("JPEG 质量必须在 1-100 之间（当前 " ++ toString q.toNat ++ "）")
    else none

def checkBitrate (field : String) (bitrate : Option (BitVec 32)) : List ValidationIssue :=
  issuesOf field bitrate fun kbps =>
    if 6 ≤ kbps.toNat ∧ kbps.toNat ≤ 510 then none
    else some ("Opus 码率必须在 6-510 kbps 之间（当前 " ++ toString kbps.toNat ++ "）")

/-- What `validate` looks at in one field. -/
def checkField (floats : FloatText) : (k : Key) → Option k.type → List ValidationIssue
  | .clientRelay, v => checkHostPort "client.relay" v
  | .clientToken, v => checkNonEmpty "client.token" v "token"
  | .clientX11, v => checkHostPort "client.x11" v
  | .clientDisplay, v => checkDisplay "client.display" v
  | .serverListen, v => checkHostPort "server.listen" v
  | .serverX11Port, v => checkX11Port "server.x11_port" v
  | .serverToken, v => checkNonEmpty "server.token" v "token"
  | .sshHost, v => checkNonEmpty "ssh.host" v "主机名"
  | .sshPort, v => checkPort "ssh.port" v
  | .sshUser, v => checkNonEmpty "ssh.user" v "用户名"
  | .sshIdentity, v => checkNonEmpty "ssh.identity" v "身份文件路径"
  | .sshToken, v => checkNonEmpty "ssh.token" v "token"
  | .sshRelayPort, v => checkPort "ssh.relay_port" v
  | .sshX11, v => checkHostPort "ssh.x11" v
  | .sshDisplay, v => checkDisplay "ssh.display" v
  | .heartbeatIntervalSecs, v => checkMin "runtime.heartbeat_interval_secs" v 1
  | .heartbeatTimeoutSecs, v => checkMin "runtime.heartbeat_timeout_secs" v 1
  | .clientReadTimeoutSecs, v => checkMin "runtime.client_read_timeout_secs" v 1
  | .diffChunkSize, v => checkMin "runtime.diff_chunk_size" v 1
  | .diffMinBlockSize, v => checkMin "runtime.diff_min_block_size" v 1
  | .diffMinSavingsRatio, v => checkRatio floats "runtime.diff_min_savings_ratio" v
  | .outboundQueueBytes, v => checkMin "runtime.outbound_queue_bytes" v 1
  | .tcpSendBufferBytes, v => checkMin "runtime.tcp_send_buffer_bytes" v 1
  | .imageRecodeCodec, v => checkCodec "runtime.image_recode_codec" v
  | .imageRecodeQuality, v => checkQuality "runtime.image_recode_quality" v
  | .imageRecodeMinBytes, v => checkMin "runtime.image_recode_min_bytes" v 1
  | .audioBitrateKbps, v => checkBitrate "runtime.audio_bitrate_kbps" v
  | .audioRecordCommand, v => checkArgv "runtime.audio_record_command" v
  | .audioPlayCommand, v => checkArgv "runtime.audio_play_command" v
  | .flowPauseBytes, v => checkMin "runtime.flow_pause_bytes" v 1
  | .flowResumeBytes, v => checkMin "runtime.flow_resume_bytes" v 1
  | .sshReconnect, _ | .compressionThreshold, _ | .incrementalUplink, _ | .imageRecode, _ | .audioForward, _
  | .audioPerApp, _ | .flowControl, _ => []

/-! ## Two fields -/

/-- The issue of two values that are both set. -/
def checkPair (field : String) (a b : Option (BitVec 64)) (complaint : Nat → Nat → Option String) :
    List ValidationIssue :=
  match a, b with
  | some x, some y => ((complaint x.toNat y.toNat).map fun message => ⟨field, message⟩).toList
  | _, _ => []

/-- What `validate` looks at behind a field, in it and an earlier one. -/
def checkRelation (cfg : GuiConfig) : Key → List ValidationIssue
  | .heartbeatTimeoutSecs =>
    checkPair "runtime.heartbeat_timeout_secs" (cfg .heartbeatIntervalSecs) (cfg .heartbeatTimeoutSecs)
      fun interval timeout =>
        if timeout ≤ interval then
          some ("心跳超时（" ++ toString timeout ++ "s）必须大于心跳间隔（" ++ toString interval ++ "s）")
        else none
  | .diffMinBlockSize =>
    checkPair "runtime.diff_min_block_size" (cfg .diffMinBlockSize) (cfg .diffChunkSize)
      fun block chunk =>
        if block > chunk then
          some ("差分最小块（" ++ toString block ++ "）不能大于差分块大小（" ++ toString chunk ++
            "），否则永远不会发送差分帧")
        else none
  | .flowResumeBytes =>
    checkPair "runtime.flow_resume_bytes" (cfg .flowResumeBytes) (cfg .flowPauseBytes)
      fun resume pause =>
        if resume ≥ pause then
          some ("恢复水位（" ++ toString resume ++ "）必须小于暂停水位（" ++ toString pause ++ "）")
        else none
  | _ => []

/-- `GuiConfig::validate`. -/
def validate (floats : FloatText) (cfg : GuiConfig) : List ValidationIssue :=
  Key.all.flatMap fun k => checkField floats k (cfg k) ++ checkRelation cfg k

/-! ## What is accepted -/

/-- `host:port`. -/
def IsHostPort (s : String) : Prop :=
  Text.isBlank s = false ∧ ∃ host port p, Text.rsplitOnce ':' s = some (host, port) ∧ host ≠ "" ∧
    Text.parseUint 16 port = some p ∧ p ≠ 0

/-- What `validate` asks of a field that is set. -/
def Key.Accepts : (k : Key) → k.type → Prop
  | .clientRelay, v | .clientX11, v | .serverListen, v | .sshX11, v => IsHostPort v
  | .clientToken, v | .serverToken, v | .sshHost, v | .sshUser, v | .sshIdentity, v | .sshToken, v =>
    Text.isBlank v = false
  | .clientDisplay, v | .sshDisplay, v => v.toNat ≤ 255
  | .serverX11Port, v => 1 ≤ v.toNat ∧ v.toNat ≤ 65280
  | .sshPort, v | .sshRelayPort, v => 1 ≤ v.toNat
  | .heartbeatIntervalSecs, v | .heartbeatTimeoutSecs, v | .clientReadTimeoutSecs, v | .diffChunkSize, v
  | .diffMinBlockSize, v | .outboundQueueBytes, v | .tcpSendBufferBytes, v | .imageRecodeMinBytes, v
  | .flowPauseBytes, v | .flowResumeBytes, v => 1 ≤ v.toNat
  | .diffMinSavingsRatio, x => ∃ q, GuiConfig.ratioOf x = some q ∧ 0 ≤ q ∧ q ≤ 1
  | .imageRecodeCodec, name => name = "png" ∨ name = "jpeg"
  | .imageRecodeQuality, v => 1 ≤ v.toNat ∧ v.toNat ≤ 100
  | .audioBitrateKbps, v => 6 ≤ v.toNat ∧ v.toNat ≤ 510
  | .audioRecordCommand, args | .audioPlayCommand, args => ∃ arg ∈ args, Text.isBlank arg = false
  | .sshReconnect, _ | .compressionThreshold, _ | .incrementalUplink, _ | .imageRecode, _ | .audioForward, _
  | .audioPerApp, _ | .flowControl, _ => True

/-- Two values are in this relation when both are set. -/
def BothSet (r : Nat → Nat → Prop) (a b : Option (BitVec 64)) : Prop :=
  ∀ x y, a = some x → b = some y → r x.toNat y.toNat

/-- What `validate` asks of two fields that are set. -/
structure GuiConfig.Related (cfg : GuiConfig) : Prop where
  heartbeat : BothSet (· < ·) (cfg .heartbeatIntervalSecs) (cfg .heartbeatTimeoutSecs)
  diff : BothSet (· ≤ ·) (cfg .diffMinBlockSize) (cfg .diffChunkSize)
  flow : BothSet (· < ·) (cfg .flowResumeBytes) (cfg .flowPauseBytes)

section Checks

variable {floats : FloatText} {cfg : GuiConfig} {field : String}

theorem issuesOf_eq_nil {α : Type} {value : Option α} {complaint : α → Option String} :
    issuesOf field value complaint = [] ↔ ∀ v, value = some v → complaint v = none := by
  unfold issuesOf
  cases value with
  | none => simp
  | some v => cases h : complaint v <;> simp [h]

theorem field_of_mem_issuesOf {α : Type} {value : Option α} {complaint : α → Option String}
    {issue : ValidationIssue} (h : issue ∈ issuesOf field value complaint) : issue.field = field := by
  unfold issuesOf at h
  cases hmessage : value.bind complaint with
  | none =>
    rw [hmessage] at h
    exact absurd h List.not_mem_nil
  | some message =>
    rw [hmessage] at h
    rw [List.mem_singleton.mp h]

theorem checkPair_eq_nil {a b : Option (BitVec 64)} {complaint : Nat → Nat → Option String} :
    checkPair field a b complaint = [] ↔ BothSet (fun x y => complaint x y = none) a b := by
  unfold checkPair BothSet
  cases a with
  | none => simp
  | some x =>
    cases b with
    | none => simp
    | some y => cases h : complaint x.toNat y.toNat <;> simp [h]

theorem field_of_mem_checkPair {a b : Option (BitVec 64)} {complaint : Nat → Nat → Option String}
    {issue : ValidationIssue} (h : issue ∈ checkPair field a b complaint) : issue.field = field := by
  unfold checkPair at h
  split at h
  · rename_i x y
    cases hmessage : complaint x.toNat y.toNat with
    | none =>
      rw [hmessage] at h
      exact absurd h List.not_mem_nil
    | some message =>
      rw [hmessage] at h
      rw [List.mem_singleton.mp h]
  · exact absurd h List.not_mem_nil

theorem checkHostPort_eq_nil {value : Option String} :
    checkHostPort field value = [] ↔ ∀ v, value = some v → IsHostPort v := by
  unfold checkHostPort
  rw [issuesOf_eq_nil]
  refine forall₂_congr fun v _ => ?_
  unfold IsHostPort
  cases hblank : Text.isBlank v with
  | true => simp
  | false =>
    cases hsplit : Text.rsplitOnce ':' v with
    | none => simp
    | some parts =>
      obtain ⟨host, port⟩ := parts
      by_cases hhost : host = ""
      · simp [hhost]
      · cases hport : Text.parseUint 16 port with
        | none => simp [hhost, hport]
        | some p => simp [hhost, hport]

theorem checkNonEmpty_eq_nil {value : Option String} {what : String} :
    checkNonEmpty field value what = [] ↔ ∀ v, value = some v → Text.isBlank v = false := by
  simp [checkNonEmpty, issuesOf_eq_nil]

theorem one_le_toNat {bits : Nat} {v : BitVec bits} : 1 ≤ v.toNat ↔ v ≠ 0 := by
  rw [Nat.one_le_iff_ne_zero, Ne, Ne, ← BitVec.toNat_inj]
  simp

theorem checkPort_eq_nil {port : Option (BitVec 16)} :
    checkPort field port = [] ↔ ∀ p, port = some p → 1 ≤ p.toNat := by
  simp [checkPort, issuesOf_eq_nil, one_le_toNat]

theorem checkDisplay_eq_nil {display : Option (BitVec 16)} :
    checkDisplay field display = [] ↔ ∀ d, display = some d → d.toNat ≤ 255 := by
  simp [checkDisplay, issuesOf_eq_nil]

theorem checkX11Port_eq_nil {port : Option (BitVec 16)} :
    checkX11Port field port = [] ↔ ∀ p, port = some p → 1 ≤ p.toNat ∧ p.toNat ≤ 65280 := by
  unfold checkX11Port
  rw [issuesOf_eq_nil]
  refine forall₂_congr fun p _ => ?_
  rw [one_le_toNat]
  by_cases hp : p = 0
  · simp [hp]
  · rw [if_neg hp]
    simp only [hp, ite_eq_right_iff, reduceCtorEq, imp_false, not_false_eq_true, true_and, ne_eq]
    omega

theorem checkMin_eq_nil {value : Option (BitVec 64)} {least : Nat} :
    checkMin field value least = [] ↔ ∀ v, value = some v → least ≤ v.toNat := by
  simp [checkMin, issuesOf_eq_nil]

theorem inUnitRange_iff {x : F64} :
    inUnitRange x ↔ ∃ q, GuiConfig.ratioOf x = some q ∧ 0 ≤ q ∧ q ≤ 1 := by
  cases x <;> simp [inUnitRange, GuiConfig.ratioOf]

theorem checkRatio_eq_nil {ratio : Option F64} :
    checkRatio floats field ratio = [] ↔
      ∀ x, ratio = some x → ∃ q, GuiConfig.ratioOf x = some q ∧ 0 ≤ q ∧ q ≤ 1 := by
  simp [checkRatio, issuesOf_eq_nil, inUnitRange_iff]

theorem checkCodec_eq_nil {codec : Option String} :
    checkCodec field codec = [] ↔ ∀ name, codec = some name → name = "png" ∨ name = "jpeg" := by
  unfold checkCodec
  rw [issuesOf_eq_nil]
  refine forall₂_congr fun name _ => ?_
  by_cases hpng : name = "png" <;> simp [hpng]

theorem checkQuality_eq_nil {quality : Option (BitVec 8)} :
    checkQuality field quality = [] ↔ ∀ q, quality = some q → 1 ≤ q.toNat ∧ q.toNat ≤ 100 := by
  simp [checkQuality, issuesOf_eq_nil, one_le_toNat]

theorem checkBitrate_eq_nil {bitrate : Option (BitVec 32)} :
    checkBitrate field bitrate = [] ↔ ∀ b, bitrate = some b → 6 ≤ b.toNat ∧ b.toNat ≤ 510 := by
  simp [checkBitrate, issuesOf_eq_nil]

theorem checkArgv_eq_nil {argv : Option (List String)} :
    checkArgv field argv = [] ↔ ∀ args, argv = some args → ∃ arg ∈ args, Text.isBlank arg = false := by
  unfold checkArgv
  rw [issuesOf_eq_nil]
  refine forall₂_congr fun args _ => ?_
  have hall : (args.isEmpty || args.all Text.isBlank) = args.all Text.isBlank := by
    cases args <;> simp
  rw [hall]
  simp

/-- The check of a field lets through what it accepts. -/
theorem checkField_eq_nil (k : Key) (value : Option k.type) :
    checkField floats k value = [] ↔ ∀ v, value = some v → k.Accepts v := by
  cases k with
  | clientRelay | clientX11 | serverListen | sshX11 => exact checkHostPort_eq_nil
  | clientToken | serverToken | sshHost | sshUser | sshIdentity | sshToken => exact checkNonEmpty_eq_nil
  | clientDisplay | sshDisplay => exact checkDisplay_eq_nil
  | serverX11Port => exact checkX11Port_eq_nil
  | sshPort | sshRelayPort => exact checkPort_eq_nil
  | heartbeatIntervalSecs | heartbeatTimeoutSecs | clientReadTimeoutSecs | diffChunkSize | diffMinBlockSize
  | outboundQueueBytes | tcpSendBufferBytes | imageRecodeMinBytes | flowPauseBytes | flowResumeBytes =>
    exact checkMin_eq_nil
  | diffMinSavingsRatio => exact checkRatio_eq_nil
  | imageRecodeCodec => exact checkCodec_eq_nil
  | imageRecodeQuality => exact checkQuality_eq_nil
  | audioBitrateKbps => exact checkBitrate_eq_nil
  | audioRecordCommand | audioPlayCommand => exact checkArgv_eq_nil
  | sshReconnect | compressionThreshold | incrementalUplink | imageRecode | audioForward | audioPerApp
  | flowControl => exact iff_of_true rfl fun _ _ => trivial

/-- An issue names the field it is about. -/
theorem field_of_mem_checkField {k : Key} {value : Option k.type} {issue : ValidationIssue}
    (h : issue ∈ checkField floats k value) : issue.field = k.path := by
  cases k with
  | sshReconnect | compressionThreshold | incrementalUplink | imageRecode | audioForward | audioPerApp
  | flowControl => exact absurd h List.not_mem_nil
  | _ => exact field_of_mem_issuesOf h

theorem field_of_mem_checkRelation {k : Key} {issue : ValidationIssue} (h : issue ∈ checkRelation cfg k) :
    issue.field = k.path := by
  unfold checkRelation at h
  split at h
  · exact field_of_mem_checkPair h
  · exact field_of_mem_checkPair h
  · exact field_of_mem_checkPair h
  · exact absurd h List.not_mem_nil

/-- **Every issue names a field by its path.** -/
theorem field_of_mem_validate {issue : ValidationIssue} (h : issue ∈ validate floats cfg) :
    ∃ k : Key, issue.field = k.path := by
  obtain ⟨k, _, hissue⟩ := List.mem_flatMap.mp h
  refine ⟨k, ?_⟩
  rcases List.mem_append.mp hissue with hfield | hrelation
  · exact field_of_mem_checkField hfield
  · exact field_of_mem_checkRelation hrelation

theorem checkRelation_eq_nil : (∀ k, checkRelation cfg k = []) ↔ cfg.Related := by
  constructor
  · intro h
    have hheartbeat := h .heartbeatTimeoutSecs
    have hdiff := h .diffMinBlockSize
    have hflow := h .flowResumeBytes
    simp only [checkRelation, checkPair_eq_nil] at hheartbeat hdiff hflow
    refine ⟨?_, ?_, ?_⟩
    · intro x y hx hy
      simpa using hheartbeat x y hx hy
    · intro x y hx hy
      simpa using hdiff x y hx hy
    · intro x y hx hy
      simpa using hflow x y hx hy
  · intro h k
    unfold checkRelation
    split
    · refine checkPair_eq_nil.mpr fun x y hx hy => ?_
      simpa using h.heartbeat x y hx hy
    · refine checkPair_eq_nil.mpr fun x y hx hy => ?_
      simpa using h.diff x y hx hy
    · refine checkPair_eq_nil.mpr fun x y hx hy => ?_
      simpa using h.flow x y hx hy
    · rfl

/-- **What `validate` accepts.** -/
theorem validate_eq_nil :
    validate floats cfg = [] ↔ (∀ k v, cfg k = some v → k.Accepts v) ∧ cfg.Related := by
  unfold validate
  rw [List.flatMap_eq_nil_iff, ← checkRelation_eq_nil]
  constructor
  · intro h
    have hboth : ∀ k, checkField floats k (cfg k) = [] ∧ checkRelation cfg k = [] := by
      intro k
      exact List.append_eq_nil_iff.mp (h k k.mem_all)
    exact ⟨fun k => (checkField_eq_nil k _).mp (hboth k).1, fun k => (hboth k).2⟩
  · rintro ⟨hfields, hrelations⟩ k _
    rw [(checkField_eq_nil k _).mpr (hfields k), hrelations k, List.nil_append]

/-- A single field that is set. -/
theorem validate_set_default {k : Key} {v : k.type} (h : k.Accepts v) :
    validate floats (GuiConfig.default.set k (some v)) = [] := by
  refine validate_eq_nil.mpr ⟨?_, ?_, ?_, ?_⟩
  · intro k' v' hv'
    obtain rfl := GuiConfig.eq_of_set_default hv'
    rw [GuiConfig.set_self, Option.some.injEq] at hv'
    exact hv' ▸ h
  · intro x y hx hy
    cases (GuiConfig.eq_of_set_default hx).trans (GuiConfig.eq_of_set_default hy).symm
  · intro x y hx hy
    cases (GuiConfig.eq_of_set_default hx).trans (GuiConfig.eq_of_set_default hy).symm
  · intro x y hx hy
    cases (GuiConfig.eq_of_set_default hx).trans (GuiConfig.eq_of_set_default hy).symm

end Checks

/-! ## What the sessions run with -/

/-- What `validate` asks of the fields, said of the values that a session runs with. -/
structure WithinLimits (r : RuntimeConfig) : Prop where
  heartbeatInterval : 1 ≤ r.heartbeatInterval
  heartbeatTimeout : 1 ≤ r.heartbeatTimeout
  heartbeat : r.heartbeatInterval < r.heartbeatTimeout
  clientReadTimeout : 1 ≤ r.clientReadTimeout
  diffChunkSize : 1 ≤ r.diffChunkSize
  diffMinBlockSize : 1 ≤ r.diffMinBlockSize
  diff : r.diffMinBlockSize ≤ r.diffChunkSize
  diffMinSavingsRatio : 0 ≤ r.diffMinSavingsRatio ∧ r.diffMinSavingsRatio ≤ 1
  outboundQueueBytes : 1 ≤ r.outboundQueueBytes
  tcpSendBufferBytes : ∀ bytes, r.tcpSendBufferBytes = some bytes → 1 ≤ bytes
  imageRecodeQuality : 1 ≤ r.imageRecodeQuality.toNat ∧ r.imageRecodeQuality.toNat ≤ 100
  imageRecodeMinBytes : 1 ≤ r.imageRecodeMinBytes
  audioBitrateKbps : 6 ≤ r.audioBitrateKbps.toNat ∧ r.audioBitrateKbps.toNat ≤ 510
  audioRecordCommand : ∀ args, r.audioRecordCommand = some args → ∃ arg ∈ args, Text.isBlank arg = false
  audioPlayCommand : ∀ args, r.audioPlayCommand = some args → ∃ arg ∈ args, Text.isBlank arg = false
  flowPauseBytes : 1 ≤ r.flowPauseBytes
  flowResumeBytes : 1 ≤ r.flowResumeBytes
  flow : r.flowResumeBytes < r.flowPauseBytes

/-- When one of two values is set, it is in this relation with what stands for the other. -/
structure OneSet (r : Nat → Nat → Prop) (a b : Option (BitVec 64)) (defaultA defaultB : Nat) : Prop where
  first : ∀ x, a = some x → b = none → r x.toNat defaultB
  second : ∀ y, a = none → b = some y → r defaultA y.toNat

/-- The pairs with one field set fit the default of the other. -/
structure GuiConfig.FitsDefaults (cfg : GuiConfig) : Prop where
  heartbeat : OneSet (· < ·) (cfg .heartbeatIntervalSecs) (cfg .heartbeatTimeoutSecs) 30 90
  diff : OneSet (· ≤ ·) (cfg .diffMinBlockSize) (cfg .diffChunkSize) 1024 4096
  flow : OneSet (· < ·) (cfg .flowResumeBytes) (cfg .flowPauseBytes) (256 * 1024) (2 * 1024 * 1024)

/-- A relation of the defaults and of two set values is one of the values that are run with when it is one of
    each set value and the other's default. -/
theorem relation_iff_oneSet {r : Nat → Nat → Prop} {a b : Option (BitVec 64)} {defaultA defaultB : Nat}
    (hdefaults : r defaultA defaultB) (hset : BothSet r a b) :
    r ((a.map BitVec.toNat).getD defaultA) ((b.map BitVec.toNat).getD defaultB) ↔
      OneSet r a b defaultA defaultB := by
  constructor
  · intro h
    refine ⟨?_, ?_⟩
    · rintro x rfl rfl
      exact h
    · rintro y rfl rfl
      exact h
  · intro h
    cases a with
    | none =>
      cases b with
      | none => exact hdefaults
      | some y => exact h.second y rfl rfl
    | some x =>
      cases b with
      | none => exact h.first x rfl rfl
      | some y => exact hset x y rfl rfl

/-- What the default satisfies and every value that can be set satisfies what is run with. -/
theorem getD_map_of_forall {α β : Type} {P : β → Prop} {f : α → β} {value : Option α} {d : β} (hd : P d)
    (hvalue : ∀ v, value = some v → P (f v)) : P ((value.map f).getD d) := by
  cases value with
  | none => exact hd
  | some v => exact hvalue v rfl

theorem one_le_getD {value : Option (BitVec 64)} {d : Nat} (hd : 1 ≤ d)
    (hvalue : ∀ v, value = some v → 1 ≤ v.toNat) : 1 ≤ (value.map BitVec.toNat).getD d :=
  getD_map_of_forall hd hvalue

theorem ratio_of_accepts {cfg : GuiConfig}
    (h : ∀ x, cfg .diffMinSavingsRatio = some x → Key.diffMinSavingsRatio.Accepts x) :
    ∃ ratio, cfg.ratio = some ratio ∧ 0 ≤ ratio ∧ ratio ≤ 1 := by
  unfold GuiConfig.ratio
  cases hset : cfg .diffMinSavingsRatio with
  | none => exact ⟨_, rfl, by norm_num [RuntimeConfig.default]⟩
  | some x => exact h x hset

/-- **The values that a session runs with satisfy what `validate` enforces exactly when every pair with one
    field set fits the default of the other.** -/
theorem withinLimits_iff (floats : FloatText) (cfg : GuiConfig) (hvalid : validate floats cfg = []) :
    ∃ runtime, cfg.toRuntime = some runtime ∧ (WithinLimits runtime ↔ cfg.FitsDefaults) := by
  obtain ⟨hfields, hrelated⟩ := validate_eq_nil.mp hvalid
  obtain ⟨ratio, hratio, hrange⟩ := ratio_of_accepts (hfields .diffMinSavingsRatio)
  refine ⟨cfg.runtimeOf ratio, ?_, ?_⟩
  · rw [GuiConfig.toRuntime, hratio, Option.map_some]
  · constructor
    · intro h
      exact ⟨(relation_iff_oneSet (by decide) hrelated.heartbeat).mp h.heartbeat,
        (relation_iff_oneSet (by decide) hrelated.diff).mp h.diff,
        (relation_iff_oneSet (by decide) hrelated.flow).mp h.flow⟩
    · intro h
      refine {
        heartbeatInterval := one_le_getD (by decide) (hfields .heartbeatIntervalSecs)
        heartbeatTimeout := one_le_getD (by decide) (hfields .heartbeatTimeoutSecs)
        heartbeat := (relation_iff_oneSet (by decide) hrelated.heartbeat).mpr h.heartbeat
        clientReadTimeout := one_le_getD (by decide) (hfields .clientReadTimeoutSecs)
        diffChunkSize := one_le_getD (by decide) (hfields .diffChunkSize)
        diffMinBlockSize := one_le_getD (by decide) (hfields .diffMinBlockSize)
        diff := (relation_iff_oneSet (by decide) hrelated.diff).mpr h.diff
        diffMinSavingsRatio := hrange
        outboundQueueBytes := one_le_getD (by decide) (hfields .outboundQueueBytes)
        tcpSendBufferBytes := ?_
        imageRecodeQuality := ?_
        imageRecodeMinBytes := one_le_getD (by decide) (hfields .imageRecodeMinBytes)
        audioBitrateKbps := ?_
        audioRecordCommand := ?_
        audioPlayCommand := ?_
        flowPauseBytes := one_le_getD (by decide) (hfields .flowPauseBytes)
        flowResumeBytes := one_le_getD (by decide) (hfields .flowResumeBytes)
        flow := (relation_iff_oneSet (by decide) hrelated.flow).mpr h.flow }
      · intro bytes hbytes
        obtain ⟨v, hv, rfl⟩ := Option.map_eq_some_iff.mp (Option.or_none.symm.trans hbytes)
        exact hfields .tcpSendBufferBytes v hv
      · exact getD_map_of_forall (P := fun q : UInt8 => 1 ≤ q.toNat ∧ q.toNat ≤ 100) (by decide)
          (hfields .imageRecodeQuality)
      · exact getD_map_of_forall (P := fun b : UInt32 => 6 ≤ b.toNat ∧ b.toNat ≤ 510) (by decide)
          (hfields .audioBitrateKbps)
      · intro args hargs
        exact hfields .audioRecordCommand args (Option.or_none.symm.trans hargs)
      · intro args hargs
        exact hfields .audioPlayCommand args (Option.or_none.symm.trans hargs)

/-- An interval of 100 s and no timeout. -/
def longInterval : GuiConfig := GuiConfig.default.set .heartbeatIntervalSecs (some 100)

theorem longInterval_valid : validate FloatText.coded longInterval = [] :=
  validate_set_default (k := .heartbeatIntervalSecs) (Nat.le_of_ble_eq_true rfl)

theorem withinLimits_iff_longInterval :
    ∃ runtime, longInterval.toRuntime = some runtime ∧ (WithinLimits runtime ↔ longInterval.FitsDefaults) :=
  withinLimits_iff FloatText.coded longInterval longInterval_valid

/-- It is accepted, and the session runs with a timeout of 90 s. -/
theorem longInterval_exceeds : validate FloatText.coded longInterval = [] ∧
    ∃ runtime, longInterval.toRuntime = some runtime ∧ ¬ runtime.heartbeatInterval < runtime.heartbeatTimeout :=
  ⟨longInterval_valid, _, rfl, by decide⟩

end RemoteX11.Gui
