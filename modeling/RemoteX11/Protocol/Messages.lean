/-
  The payload of every wire frame and the 16-bit type tag that names it
  (`rx11-core`: `types.rs`, `error.rs`, `protocol/messages.rs`, `protocol/message_type.rs`).

  A `Bytes` handle is the byte string it refers to: aliasing and copying are the same value here.
  `usize` is `Nat` and a fixed-width wire field keeps its width (`UInt32`). The JSON messages are
  grouped in `JsonMessage`, the binary ones and the empty ones are constructors of `Frame`, the
  three kinds of `define_frame_types!`.
-/
import RemoteX11.Lib.Bytes

namespace RemoteX11.Protocol

open RemoteX11.Lib

/-! ## Errors and identifiers -/

/-- `std::io::ErrorKind`: the kinds the code names, and the others. -/
inductive ErrorKind where
  | connectionRefused
  | connectionReset
  | connectionAborted
  | brokenPipe
  | timedOut
  | interrupted
  | unexpectedEof
  | other (name : String)
  deriving DecidableEq, Repr

structure IoError where
  kind : ErrorKind
  msg : String
  deriving DecidableEq, Repr

/-- `is_retriable_io_error`. -/
def isRetriableIoError (e : IoError) : Bool :=
  match e.kind with
  | .connectionRefused | .connectionReset | .connectionAborted | .brokenPipe | .timedOut
  | .interrupted | .unexpectedEof => true
  | .other _ => false

inductive Rx11Error where
  | io (e : IoError)
  | protocol (msg : String)
  | auth (msg : String)
  | connectionClosed
  | timeout
  deriving DecidableEq, Repr

abbrev Result (α : Type) := Except Rx11Error α

def Rx11Error.isRetriable : Rx11Error → Bool
  | .io e => isRetriableIoError e
  | .timeout | .connectionClosed => true
  | _ => false

/-- The text of `Display`. -/
def Rx11Error.text : Rx11Error → String
  | .io e => s!"IO error: {e.msg}"
  | .protocol msg => s!"Protocol error: {msg}"
  | .auth msg => s!"Authentication error: {msg}"
  | .connectionClosed => "Connection closed"
  | .timeout => "Timeout"

structure ConnectionId where
  raw : UInt32
  deriving DecidableEq, Repr

structure DisplayNumber where
  raw : UInt16
  deriving DecidableEq, Repr

/-- `MAX_DISPLAY_NUMBER`. -/
def maxDisplayNumber : Nat := 255

/-- `DisplayNumber::UNSPECIFIED`. -/
def DisplayNumber.unspecified : DisplayNumber := ⟨0⟩

/-- `DisplayNumber::new`. A number that comes in a message is not checked by it. -/
def DisplayNumber.new (disp : UInt16) : Result DisplayNumber :=
  if disp.toNat > maxDisplayNumber then
    .error (.protocol s!"Display number must be 0-{maxDisplayNumber}, got {disp}")
  else .ok ⟨disp⟩

theorem DisplayNumber.eq_of_new_raw {disp disp' : DisplayNumber} (h : new disp.raw = .ok disp') :
    disp' = disp := by
  unfold new at h
  split at h
  · contradiction
  · exact (Except.ok.inj h).symm

structure SessionId where
  raw : String
  deriving DecidableEq, Repr

structure Token where
  raw : String
  deriving DecidableEq, Repr

/-- `MAX_TOKEN_LEN` and `MAX_SESSION_ID_LEN`. -/
def maxNameLen : Nat := 256

/-- The check of `impl_newtype!`. -/
def checkName (kind value : String) : Result Unit :=
  if value.isEmpty || value.utf8ByteSize > maxNameLen then
    .error (.protocol s!"{kind} length must be 1-{maxNameLen} bytes, got {value.utf8ByteSize}")
  else .ok ()

/-- `SessionId::new`. An id that comes in a message is not checked by it. -/
def SessionId.new (value : String) : Result SessionId :=
  (checkName "Session ID" value).map fun _ => ⟨value⟩

/-- `Token::new`. -/
def Token.new (value : String) : Result Token :=
  (checkName "Token" value).map fun _ => ⟨value⟩

/-- `CompressionAlgo`, in the preference order of `CompressionAlgo::ALL`. -/
inductive CompressionAlgo where
  | zstdStream
  | zstd
  | lz4
  | zlib
  deriving DecidableEq, Repr

def CompressionAlgo.asStr : CompressionAlgo → String
  | .zstdStream => "zstd_stream"
  | .zstd => "zstd"
  | .lz4 => "lz4"
  | .zlib => "zlib"

/-- `CompressionAlgo::ALL`. -/
def CompressionAlgo.all : List CompressionAlgo := [.zstdStream, .zstd, .lz4, .zlib]

/-- `CompressionAlgo::negotiate`. -/
def CompressionAlgo.negotiate (clientAlgos serverAlgos : List CompressionAlgo) :
    Option CompressionAlgo :=
  all.find? fun algo => clientAlgos.contains algo && serverAlgos.contains algo

/-! ## JSON payloads -/

inductive ConnectionMode where
  | server
  | client
  deriving DecidableEq, Repr

structure HelloMessage where
  version : UInt32
  mode : ConnectionMode
  resumeSessionId : Option SessionId
  compressionAlgos : List CompressionAlgo
  capabilities : List String
  deriving DecidableEq, Repr

structure HelloAckMessage where
  version : UInt32
  sessionId : SessionId
  success : Bool
  errorMsg : Option String
  compression : Option CompressionAlgo
  capabilities : List String
  deriving DecidableEq, Repr

structure AuthRequestMessage where
  token : Token
  deriving DecidableEq, Repr

structure AuthResponseMessage where
  success : Bool
  errorMsg : Option String
  deriving DecidableEq, Repr

structure SessionCreateMessage where
  display : DisplayNumber
  authName : String
  authData : Bytes
  deriving DecidableEq, Repr

structure SessionAckMessage where
  display : DisplayNumber
  success : Bool
  errorMsg : Option String
  sessionId : Option SessionId
  deriving DecidableEq, Repr

structure SessionDestroyMessage where
  display : DisplayNumber
  deriving DecidableEq, Repr

structure SessionResumeMessage where
  sessionId : SessionId
  deriving DecidableEq, Repr

structure SessionAutoCreateMessage where
  authName : String
  authData : Bytes
  deriving DecidableEq, Repr

structure ErrorMessage where
  code : UInt32
  message : String
  deriving DecidableEq, Repr

structure StreamResyncRequestMessage where
  connectionId : ConnectionId
  deriving DecidableEq, Repr

/-- `ChannelKind`: the lowercase name, unknown names included. -/
structure ChannelKind where
  name : String
  deriving DecidableEq, Repr

def ChannelKind.x11 : ChannelKind := ⟨"x11"⟩

def ChannelKind.audio : ChannelKind := ⟨"audio"⟩

structure ChannelOpenMessage where
  connectionId : ConnectionId
  kind : ChannelKind
  display : Option DisplayNumber
  app : Option ConnectionId
  deriving DecidableEq, Repr

structure ChannelCloseMessage where
  connectionId : ConnectionId
  deriving DecidableEq, Repr

inductive FlowControlAction where
  | pause
  | resume
  deriving DecidableEq, Repr

structure FlowControlMessage where
  action : FlowControlAction
  connectionId : Option ConnectionId
  deriving DecidableEq, Repr

/-- The `json` block of `define_frame_types!`. -/
inductive JsonMessage where
  | hello (m : HelloMessage)
  | helloAck (m : HelloAckMessage)
  | authRequest (m : AuthRequestMessage)
  | authResponse (m : AuthResponseMessage)
  | sessionCreate (m : SessionCreateMessage)
  | sessionAck (m : SessionAckMessage)
  | sessionDestroy (m : SessionDestroyMessage)
  | sessionResume (m : SessionResumeMessage)
  | sessionAutoCreate (m : SessionAutoCreateMessage)
  | channelOpen (m : ChannelOpenMessage)
  | channelClose (m : ChannelCloseMessage)
  | flowControl (m : FlowControlMessage)
  | error (m : ErrorMessage)
  | streamResyncRequest (m : StreamResyncRequestMessage)
  deriving DecidableEq, Repr

/-! ## Binary payloads -/

structure StreamDataMessage where
  connectionId : ConnectionId
  sequenceId : UInt32
  data : Bytes
  deriving DecidableEq, Repr

structure CompressedStreamDataMessage where
  connectionId : ConnectionId
  sequenceId : UInt32
  originalLen : Nat
  data : Bytes
  deriving DecidableEq, Repr

structure IncrementalChunk where
  offset : Nat
  length : Nat
  data : Bytes
  deriving DecidableEq, Repr

structure IncrementalStreamDataMessage where
  connectionId : ConnectionId
  sequenceId : UInt32
  baseSequenceId : UInt32
  totalLen : Nat
  chunks : List IncrementalChunk
  deriving DecidableEq, Repr

structure CompressedIncrementalStreamDataMessage where
  connectionId : ConnectionId
  sequenceId : UInt32
  originalLen : Nat
  data : Bytes
  deriving DecidableEq, Repr

/-! ## Type tags -/

inductive MessageType where
  | hello
  | helloAck
  | authRequest
  | authResponse
  | sessionCreate
  | sessionAck
  | sessionDestroy
  | sessionResume
  | sessionAutoCreate
  | streamData
  | compressedStreamData
  | incrementalStreamData
  | compressedIncrementalStreamData
  | channelOpen
  | channelClose
  | streamResyncRequest
  | heartbeat
  | heartbeatAck
  | flowControl
  | error
  deriving DecidableEq, Repr

/-- The tag on the wire (`self as u16`). -/
def MessageType.tag : MessageType → Nat
  | .hello => 0x01
  | .helloAck => 0x02
  | .authRequest => 0x03
  | .authResponse => 0x04
  | .sessionCreate => 0x10
  | .sessionAck => 0x11
  | .sessionDestroy => 0x12
  | .sessionResume => 0x13
  | .sessionAutoCreate => 0x14
  | .streamData => 0x20
  | .compressedStreamData => 0x21
  | .incrementalStreamData => 0x22
  | .compressedIncrementalStreamData => 0x23
  | .channelOpen => 0x18
  | .channelClose => 0x19
  | .streamResyncRequest => 0x1A
  | .heartbeat => 0x30
  | .heartbeatAck => 0x31
  | .flowControl => 0x40
  | .error => 0xFF

/-- `{value:04x}`: at least four lowercase hexadecimal digits. -/
def hex4 (value : Nat) : String :=
  let digits := Nat.toDigits 16 value
  String.ofList (List.replicate (4 - digits.length) '0' ++ digits)

/-- `TryFrom<u16>`. -/
def MessageType.tryFrom (value : Nat) : Result MessageType :=
  match value with
  | 0x01 => .ok .hello
  | 0x02 => .ok .helloAck
  | 0x03 => .ok .authRequest
  | 0x04 => .ok .authResponse
  | 0x10 => .ok .sessionCreate
  | 0x11 => .ok .sessionAck
  | 0x12 => .ok .sessionDestroy
  | 0x13 => .ok .sessionResume
  | 0x14 => .ok .sessionAutoCreate
  | 0x20 => .ok .streamData
  | 0x21 => .ok .compressedStreamData
  | 0x22 => .ok .incrementalStreamData
  | 0x23 => .ok .compressedIncrementalStreamData
  | 0x18 => .ok .channelOpen
  | 0x19 => .ok .channelClose
  | 0x1A => .ok .streamResyncRequest
  | 0x30 => .ok .heartbeat
  | 0x31 => .ok .heartbeatAck
  | 0x40 => .ok .flowControl
  | 0xFF => .ok .error
  | _ => .error (.protocol ("Unknown message type: 0x" ++ hex4 value))

theorem MessageType.tryFrom_tag (t : MessageType) : MessageType.tryFrom t.tag = .ok t := by
  cases t <;> rfl

theorem MessageType.tag_lt (t : MessageType) : t.tag < 256 ^ 2 := by
  cases t <;> decide

def JsonMessage.msgType : JsonMessage → MessageType
  | .hello _ => .hello
  | .helloAck _ => .helloAck
  | .authRequest _ => .authRequest
  | .authResponse _ => .authResponse
  | .sessionCreate _ => .sessionCreate
  | .sessionAck _ => .sessionAck
  | .sessionDestroy _ => .sessionDestroy
  | .sessionResume _ => .sessionResume
  | .sessionAutoCreate _ => .sessionAutoCreate
  | .channelOpen _ => .channelOpen
  | .channelClose _ => .channelClose
  | .flowControl _ => .flowControl
  | .error _ => .error
  | .streamResyncRequest _ => .streamResyncRequest

/-! ## Validation on decode -/

def maxAuthNameLen : Nat := 256

def maxAuthDataLen : Nat := 4096

/-- `validate_auth_fields`: the name is measured in UTF-8 bytes. -/
def validateAuthFields (authName : String) (authData : Bytes) : Result Unit :=
  let nameLen := authName.utf8ByteSize
  let dataLen := authData.length
  if nameLen > maxAuthNameLen then
    .error (.protocol s!"auth_name too long: {nameLen} bytes (max {maxAuthNameLen})")
  else if dataLen > maxAuthDataLen then
    .error (.protocol s!"auth_data too long: {dataLen} bytes (max {maxAuthDataLen})")
  else .ok ()

/-- The `validate(..)` hook of the JSON frame kinds; only two kinds have one. -/
def JsonMessage.validate : JsonMessage → Result Unit
  | .sessionCreate m => validateAuthFields m.authName m.authData
  | .sessionAutoCreate m => validateAuthFields m.authName m.authData
  | _ => .ok ()

end RemoteX11.Protocol
