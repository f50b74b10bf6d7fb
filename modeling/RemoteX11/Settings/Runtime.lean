/-
  The `[runtime]` section of the configuration file, and the diff loop it reaches (`settings.rs`,
  `config.rs`, `incremental.rs`).

  `load_config` turns a file into a `Config` or into the defaults, `to_runtime` fills in what the file
  leaves out, and `ConnectionDataCache::from_runtime` takes the diff parameters from there. Nothing on
  the way looks at a value. `diff_halts_iff` says which files this matters for: the loop of
  `compute_diff_chunks` advances by `diff_chunk_size` each turn.

  The TOML parser is the parameter `Toml`. Durations are in seconds and the ratio is an exact rational.
-/
import RemoteX11.Data.Savings
import RemoteX11.Lib.Loop
import RemoteX11.Recode.Frame

namespace RemoteX11.Settings

open RemoteX11.Lib RemoteX11.Protocol RemoteX11.Data

/-! ## Settings -/

/-- `RuntimeConfig`. -/
structure RuntimeConfig where
  heartbeatInterval : Nat
  heartbeatTimeout : Nat
  clientReadTimeout : Nat
  compressionThreshold : Nat
  diffChunkSize : Nat
  diffMinBlockSize : Nat
  diffMinSavingsRatio : ℚ
  incrementalUplink : Bool
  outboundQueueBytes : Nat
  tcpSendBufferBytes : Option Nat
  imageRecode : Bool
  imageRecodeCodec : Recode.Codec
  imageRecodeQuality : UInt8
  imageRecodeMinBytes : Nat
  audioForward : Bool
  audioPerApp : Bool
  audioBitrateKbps : UInt32
  audioRecordCommand : Option (List String)
  audioPlayCommand : Option (List String)
  flowControl : Bool
  flowPauseBytes : Nat
  flowResumeBytes : Nat
  deriving DecidableEq

/-- `RuntimeConfig::default`. -/
def RuntimeConfig.default : RuntimeConfig where
  heartbeatInterval := 30
  heartbeatTimeout := 90
  clientReadTimeout := 100
  compressionThreshold := 256
  diffChunkSize := 4096
  diffMinBlockSize := 1024
  diffMinSavingsRatio := 1 / 10
  incrementalUplink := true
  outboundQueueBytes := 1024 * 1024
  tcpSendBufferBytes := none
  imageRecode := true
  imageRecodeCodec := .png
  imageRecodeQuality := 80
  imageRecodeMinBytes := 16 * 1024
  audioForward := true
  audioPerApp := true
  audioBitrateKbps := 64
  audioRecordCommand := none
  audioPlayCommand := none
  flowControl := true
  flowPauseBytes := 2 * 1024 * 1024
  flowResumeBytes := 256 * 1024

/-- `RuntimeFileConfig`: what the file says; the rest keeps its default. -/
structure RuntimeFileConfig where
  heartbeatIntervalSecs : Option Nat := none
  heartbeatTimeoutSecs : Option Nat := none
  clientReadTimeoutSecs : Option Nat := none
  compressionThreshold : Option Nat := none
  diffChunkSize : Option Nat := none
  diffMinBlockSize : Option Nat := none
  diffMinSavingsRatio : Option ℚ := none
  incrementalUplink : Option Bool := none
  outboundQueueBytes : Option Nat := none
  tcpSendBufferBytes : Option Nat := none
  imageRecode : Option Bool := none
  imageRecodeCodec : Option String := none
  imageRecodeQuality : Option UInt8 := none
  imageRecodeMinBytes : Option Nat := none
  audioForward : Option Bool := none
  audioPerApp : Option Bool := none
  audioBitrateKbps : Option UInt32 := none
  audioRecordCommand : Option (List String) := none
  audioPlayCommand : Option (List String) := none
  flowControl : Option Bool := none
  flowPauseBytes : Option Nat := none
  flowResumeBytes : Option Nat := none
  deriving DecidableEq

/-- `to_runtime`. -/
def RuntimeFileConfig.toRuntime (r : RuntimeFileConfig) : RuntimeConfig :=
  let defaults := RuntimeConfig.default
  { heartbeatInterval := r.heartbeatIntervalSecs.getD defaults.heartbeatInterval
    heartbeatTimeout := r.heartbeatTimeoutSecs.getD defaults.heartbeatTimeout
    clientReadTimeout := r.clientReadTimeoutSecs.getD defaults.clientReadTimeout
    compressionThreshold := r.compressionThreshold.getD defaults.compressionThreshold
    diffChunkSize := r.diffChunkSize.getD defaults.diffChunkSize
    diffMinBlockSize := r.diffMinBlockSize.getD defaults.diffMinBlockSize
    diffMinSavingsRatio := r.diffMinSavingsRatio.getD defaults.diffMinSavingsRatio
    incrementalUplink := r.incrementalUplink.getD defaults.incrementalUplink
    outboundQueueBytes := r.outboundQueueBytes.getD defaults.outboundQueueBytes
    tcpSendBufferBytes := r.tcpSendBufferBytes <|> defaults.tcpSendBufferBytes
    imageRecode := r.imageRecode.getD defaults.imageRecode
    imageRecodeCodec :=
      -- an unknown name keeps the default
      match r.imageRecodeCodec with
      | some "png" => .png
      | some "jpeg" => .jpeg
      | _ => defaults.imageRecodeCodec
    imageRecodeQuality := r.imageRecodeQuality.getD defaults.imageRecodeQuality
    imageRecodeMinBytes := r.imageRecodeMinBytes.getD defaults.imageRecodeMinBytes
    audioForward := r.audioForward.getD defaults.audioForward
    audioPerApp := r.audioPerApp.getD defaults.audioPerApp
    audioBitrateKbps := r.audioBitrateKbps.getD defaults.audioBitrateKbps
    audioRecordCommand := r.audioRecordCommand <|> defaults.audioRecordCommand
    audioPlayCommand := r.audioPlayCommand <|> defaults.audioPlayCommand
    flowControl := r.flowControl.getD defaults.flowControl
    flowPauseBytes := r.flowPauseBytes.getD defaults.flowPauseBytes
    flowResumeBytes := r.flowResumeBytes.getD defaults.flowResumeBytes }

/-- `Config`, as far as the runtime goes. -/
structure Config where
  runtime : Option RuntimeFileConfig := none
  deriving DecidableEq

/-- `toml::from_str`, `none` for a text it rejects. -/
abbrev Toml := String → Option Config

/-- What `load_config` finds on disk. -/
inductive ConfigFile where
  | noHome
  | missing
  | unreadable
  | content (text : String)
  deriving DecidableEq, Repr

/-- `load_config`: a missing or broken file yields the defaults. -/
def loadConfig (toml : Toml) : ConfigFile → Config
  | .content text => (toml text).getD {}
  | _ => {}

/-- `config.runtime.unwrap_or_default().to_runtime()`: what the commands run with. -/
def Config.toRuntime (config : Config) : RuntimeConfig := (config.runtime.getD {}).toRuntime

/-- `ConnectionDataCache::from_runtime`. -/
def fromRuntime (runtime : RuntimeConfig) : ConnectionDataCache :=
  .withParams (.ofRatio runtime.diffChunkSize runtime.diffMinBlockSize runtime.diffMinSavingsRatio)

/-- A file that leaves everything out runs with the defaults. -/
theorem toRuntime_empty : RuntimeFileConfig.toRuntime {} = .default := rfl

/-- The file says that blocks have no bytes. -/
def ZeroChunkSize (toml : Toml) (file : ConfigFile) : Prop :=
  ∃ text config runtime, file = .content text ∧ toml text = some config ∧
    config.runtime = some runtime ∧ runtime.diffChunkSize = some 0

/-- No other file does: the default is positive. -/
theorem diffChunkSize_eq_zero_iff (toml : Toml) (file : ConfigFile) :
    (loadConfig toml file).toRuntime.diffChunkSize = 0 ↔ ZeroChunkSize toml file := by
  have hdefault : (Config.toRuntime {}).diffChunkSize ≠ 0 := by decide
  constructor
  · intro h
    cases file with
    | content text =>
      cases htoml : toml text with
      | none => simp [loadConfig, htoml, hdefault] at h
      | some config =>
        obtain ⟨_ | runtime⟩ := config
        · simp only [loadConfig, htoml, Option.getD_some] at h
          exact absurd h hdefault
        · cases hsize : runtime.diffChunkSize with
          | none =>
            simp only [loadConfig, htoml, Option.getD_some, Config.toRuntime,
              RuntimeFileConfig.toRuntime, hsize, Option.getD_none] at h
            exact absurd h (by decide)
          | some n =>
            simp only [loadConfig, htoml, Option.getD_some, Config.toRuntime,
              RuntimeFileConfig.toRuntime, hsize] at h
            exact ⟨text, _, runtime, rfl, htoml, rfl, by rw [hsize, h]⟩
    | noHome => exact absurd h hdefault
    | missing => exact absurd h hdefault
    | unreadable => exact absurd h hdefault
  · rintro ⟨text, config, runtime, rfl, htoml, hruntime, hsize⟩
    simp only [loadConfig, htoml, Option.getD_some, Config.toRuntime, hruntime,
      RuntimeFileConfig.toRuntime, hsize]

/-! ## The diff loop -/

/-- The variables of the loop of `compute_diff_chunks`. -/
structure DiffLoop where
  offset : Nat
  chunks : List IncrementalChunk
  deriving DecidableEq, Repr

/-- One turn of it. -/
def diffTurn (params : DiffParams) (old new : Bytes) (s : DiffLoop) : Option DiffLoop :=
  if s.offset < new.length then
    let chunkEnd := min (s.offset + params.chunkSize) new.length
    let newChunk := blockAt params.chunkSize new s.offset
    let oldChunk := blockAt params.chunkSize old s.offset
    some {
      offset := chunkEnd
      chunks :=
        if newChunk ≠ oldChunk then s.chunks ++ [⟨s.offset, newChunk.length, newChunk⟩] else s.chunks }
  else none

section Loop

variable {params : DiffParams} {old new : Bytes} {s t : DiffLoop}

theorem diffTurn_eq_some (h : diffTurn params old new s = some t) :
    s.offset < new.length ∧ t.offset = min (s.offset + params.chunkSize) new.length := by
  unfold diffTurn at h
  split at h
  · rename_i hlt
    cases h
    exact ⟨hlt, rfl⟩
  · cases h

/-- With blocks of some length every turn advances. -/
theorem diffTurn_advances (hpos : 0 < params.chunkSize) (h : diffTurn params old new s = some t) :
    s.offset < t.offset := by
  obtain ⟨hlt, hoff⟩ := diffTurn_eq_some h
  omega

/-- Without, none does. -/
theorem diffTurn_stays (hzero : params.chunkSize = 0) (h : diffTurn params old new s = some t) :
    t.offset = s.offset := by
  obtain ⟨hlt, hoff⟩ := diffTurn_eq_some h
  omega

theorem diffLoop_halts (hpos : 0 < params.chunkSize) (s : DiffLoop) :
    Halts (diffTurn params old new) s := by
  apply halts_of_measure (I := fun _ => True) (fun s => new.length - s.offset) _ trivial
  intro s t _ h
  have hlt := (diffTurn_eq_some h).1
  have hadv := diffTurn_advances hpos h
  exact ⟨trivial, by omega⟩

theorem diffLoop_diverges (hzero : params.chunkSize = 0) (hnew : new ≠ []) :
    ¬ Halts (diffTurn params old new) ⟨0, []⟩ := by
  have hlen : 0 < new.length := List.length_pos_iff.mpr hnew
  apply not_halts_of_inv (I := fun s => s.offset = 0) _ rfl
  intro s hs
  have hsome : (diffTurn params old new s).isSome := by
    rw [diffTurn, if_pos (by omega)]
    rfl
  obtain ⟨t, ht⟩ := Option.isSome_iff_exists.mp hsome
  exact ⟨t, ht, (diffTurn_stays hzero ht).trans hs⟩

/-- The loop collects the chunks that the bounded recursion returns, and ends at the end of the
    payload. -/
theorem diffLoop_collects (hpos : 0 < params.chunkSize) (bound offset : Nat)
    (chunks : List IncrementalChunk) (hbound : new.length ≤ bound + offset)
    (hoff : offset ≤ new.length) :
    ∃ n, turns (diffTurn params old new) n ⟨offset, chunks⟩ =
      some ⟨new.length, chunks ++ diffChunks params.chunkSize old new bound offset⟩ := by
  induction bound generalizing offset chunks with
  | zero =>
    obtain rfl : offset = new.length := by omega
    exact ⟨0, by simp [turns, diffChunks]⟩
  | succ bound ih =>
    by_cases hlt : offset < new.length
    · obtain ⟨t, ht⟩ : ∃ t, diffTurn params old new ⟨offset, chunks⟩ = some t := by
        rw [diffTurn, if_pos hlt]
        exact ⟨_, rfl⟩
      have hadv : offset < min (offset + params.chunkSize) new.length := by omega
      obtain ⟨n, hn⟩ := ih (min (offset + params.chunkSize) new.length) t.chunks (by omega) (by omega)
      refine ⟨n + 1, (turns_succ ht n).trans ?_⟩
      rw [diffTurn, if_pos hlt] at ht
      cases ht
      rw [hn]
      simp only [diffChunks, if_pos hlt]
      split
      · rw [List.append_assoc]
        rfl
      · rfl
    · obtain rfl : offset = new.length := by omega
      exact ⟨0, by simp [turns, diffChunks]⟩

/-- What the loop returns is `computeDiffChunks`. -/
theorem diffLoop_result (hpos : 0 < params.chunkSize) :
    ∃ n, turns (diffTurn params old new) n ⟨0, []⟩ = some ⟨new.length, computeDiffChunks params old new⟩ ∧
      diffTurn params old new ⟨new.length, computeDiffChunks params old new⟩ = none := by
  obtain ⟨n, hn⟩ := @diffLoop_collects params old new hpos new.length 0 [] (by omega) (by omega)
  exact ⟨n, hn, if_neg (Nat.lt_irrefl _)⟩

end Loop

/-- **When the diff loop ends.** For every file `load_config` reads, every base and every payload: the
    loop ends and its offset advances in every turn, unless the file sets `diff_chunk_size` to zero and
    the payload has a byte. -/
theorem diff_halts_iff (toml : Toml) (file : ConfigFile) (old new : Bytes) :
    (Halts (diffTurn (fromRuntime (loadConfig toml file).toRuntime).params old new) ⟨0, []⟩ ∧
      ∀ n s t, turns (diffTurn (fromRuntime (loadConfig toml file).toRuntime).params old new) n ⟨0, []⟩ =
          some s →
        diffTurn (fromRuntime (loadConfig toml file).toRuntime).params old new s = some t →
          s.offset < t.offset) ↔
      ¬ ZeroChunkSize toml file ∨ new = [] := by
  have hsize := diffChunkSize_eq_zero_iff toml file
  obtain ⟨params, hparams⟩ : ∃ params,
      params = (fromRuntime (loadConfig toml file).toRuntime).params := ⟨_, rfl⟩
  have hchunk : params.chunkSize = (loadConfig toml file).toRuntime.diffChunkSize := by
    rw [hparams]
    rfl
  rw [← hparams, ← hsize, ← hchunk]
  constructor
  · rintro ⟨hhalts, -⟩
    by_cases hzero : params.chunkSize = 0
    · refine Or.inr (by_contra fun hnew => ?_)
      exact diffLoop_diverges hzero hnew hhalts
    · exact Or.inl hzero
  · rintro (hpos | hnil)
    · have hpos : 0 < params.chunkSize := Nat.pos_of_ne_zero hpos
      exact ⟨diffLoop_halts hpos _, fun n s t _ ht => diffTurn_advances hpos ht⟩
    · subst hnil
      have hnone : ∀ s, diffTurn params old [] s = none := fun s => if_neg (Nat.not_lt_zero _)
      refine ⟨⟨0, _, rfl, hnone _⟩, ?_⟩
      intro n s t _ ht
      rw [hnone] at ht
      cases ht

/-- The text that sets it, and a parser that knows this text only. -/
def zeroChunkText : String := "[runtime]\ndiff_chunk_size = 0\n"

def zeroChunkToml : Toml := fun text =>
  if text = zeroChunkText then some { runtime := some { diffChunkSize := some 0 } } else none

/-- A payload at the default floor for diffs. -/
theorem zero_chunk_size_diverges :
    1024 = (loadConfig zeroChunkToml (.content zeroChunkText)).toRuntime.diffMinBlockSize ∧
      ¬ Halts (diffTurn (fromRuntime
        (loadConfig zeroChunkToml (.content zeroChunkText)).toRuntime).params
          (List.replicate 1024 0) (List.replicate 1024 0)) ⟨0, []⟩ := by
  refine ⟨by decide, diffLoop_diverges (by decide) ?_⟩
  apply List.ne_nil_of_length_pos
  rw [List.length_replicate]
  decide

end RemoteX11.Settings
