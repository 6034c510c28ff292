import ReachMyDevice.Lib.ExtendedRational

/-!
# The control-channel messages

A data-channel message reaches a handler only through `decode`, so a message is
modelled by what `decode` returns on its bytes.
-/
namespace ReachMyDevice

abbrev Bytes := List UInt8
abbrev F64 := ExtendedRational.Ext

def protocolMajor : Nat := 1
def protocolMinor : Nat := 7
def featureClientCursor : Nat := 1

/-- Enumerations travel as their numbers; a peer may send any number. -/
inductive VideoCodec
  | unspecified
  | h264
  | av1
  deriving DecidableEq, Repr

def VideoCodec.toInt : VideoCodec → Int
  | .unspecified => 0
  | .h264 => 1
  | .av1 => 2

inductive Role
  | unspecified
  | host
  | viewer
  deriving DecidableEq, Repr

def Role.toInt : Role → Int
  | .unspecified => 0
  | .host => 1
  | .viewer => 2

def clipboardKindText : Int := 1

structure Hello where
  deviceName : String
  role : Int
  features : Nat
  publicKey : Bytes
  signature : Bytes
  supportedVideoCodecs : List Int
  password : String
  deriving DecidableEq, Repr

structure HelloAck where
  accepted : Bool
  reason : String
  deviceName : String
  features : Nat
  hostPublicKey : Bytes
  hostProof : Bytes
  videoCodec : Int
  passwordRequired : Bool
  deriving DecidableEq, Repr

structure MouseMove where
  x : F64
  y : F64
  deriving DecidableEq, Repr

structure MouseButton where
  button : Int
  pressed : Bool
  x : F64
  y : F64
  deriving DecidableEq, Repr

structure MouseScroll where
  dx : F64
  dy : F64
  deriving DecidableEq, Repr

structure KeyEvent where
  hidUsage : Nat
  pressed : Bool
  modifiers : Nat
  deriving DecidableEq, Repr

inductive InputEvent
  | mouseMove (m : MouseMove)
  | mouseButton (b : MouseButton)
  | mouseScroll (s : MouseScroll)
  | key (k : KeyEvent)
  deriving DecidableEq, Repr

structure SetZoom where
  x : F64
  y : F64
  w : F64
  h : F64
  deriving DecidableEq, Repr

structure ClipboardUpdate where
  kind : Int
  data : Bytes
  seq : Nat
  originHash : UInt64
  deriving DecidableEq, Repr

structure FileOffer where
  transferId : String
  name : String
  size : Nat
  mime : String
  deriving DecidableEq, Repr

structure FileChunk where
  transferId : String
  offset : Nat
  data : Bytes
  deriving DecidableEq, Repr

structure FileAck where
  transferId : String
  offset : Nat
  deriving DecidableEq, Repr

structure FileComplete where
  transferId : String
  sha256 : Bytes
  deriving DecidableEq, Repr

structure FileCancel where
  transferId : String
  reason : String
  deriving DecidableEq, Repr

structure DisplayDescriptor where
  id : Nat
  width : Nat
  height : Nat
  name : String
  primary : Bool
  deriving DecidableEq, Repr

inductive Payload
  | hello (h : Hello)
  | helloAck (a : HelloAck)
  /-- `none`: the `oneof` of the event is unset. -/
  | input (event : Option InputEvent)
  | ping (tMicros : Nat)
  | pong (tMicros : Nat)
  | bye (reason : String)
  | clipboard (u : ClipboardUpdate)
  | fileOffer (o : FileOffer)
  | fileChunk (c : FileChunk)
  | fileAck (a : FileAck)
  | fileComplete (c : FileComplete)
  | fileCancel (c : FileCancel)
  | displayList (displays : List DisplayDescriptor)
  | selectDisplay (id : Nat)
  | requestKeyframe
  | viewOnly (enabled : Bool)
  | audio (opus : Bytes) (seq : Nat)
  | setZoom (z : SetZoom)
  deriving DecidableEq, Repr

structure Envelope where
  protocolMajor : Nat
  protocolMinor : Nat
  payload : Option Payload
  deriving DecidableEq, Repr

/-- The result of `decode` on a message: `none` when the bytes are no envelope. -/
abbrev Wire := Option Envelope

def envelope (payload : Payload) : Envelope where
  protocolMajor := protocolMajor
  protocolMinor := protocolMinor
  payload := some payload

/-- The peer decodes what `encode` wrote. -/
def encode (env : Envelope) : Wire := some env

def checkCompatibility (remoteMajor : Nat) : Except String Unit :=
  if remoteMajor = protocolMajor then .ok ()
  else .error s!"incompatible protocol major: local={protocolMajor} remote={remoteMajor}"

def nativeSupportedCodecs : List Int := [VideoCodec.h264.toInt]

def helloAuthenticated (deviceName : String) (role : Role) (features : Nat)
    (publicKey signature : Bytes) : Envelope :=
  envelope (.hello {
    deviceName, role := role.toInt, features, publicKey, signature,
    supportedVideoCodecs := nativeSupportedCodecs, password := "" })

def hello (deviceName : String) (role : Role) (features : Nat) : Envelope :=
  helloAuthenticated deviceName role features [] []

/-- No effect on an envelope that carries no `Hello`. -/
def withPassword (env : Envelope) (password : String) : Envelope :=
  match env.payload with
  | some (.hello h) => { env with payload := some (.hello { h with password }) }
  | _ => env

def helloAckOkSigned (deviceName : String) (features : Nat)
    (hostPublicKey hostProof : Bytes) (videoCodec : VideoCodec) : Envelope :=
  envelope (.helloAck {
    accepted := true, reason := "", deviceName, features, hostPublicKey, hostProof,
    videoCodec := videoCodec.toInt, passwordRequired := false })

def helloAckOk (deviceName : String) (features : Nat) (videoCodec : VideoCodec) : Envelope :=
  helloAckOkSigned deviceName features [] [] videoCodec

/-- The body of the two rejecting acknowledgements. -/
def rejectingAck (reason : String) (passwordRequired : Bool) : HelloAck where
  accepted := false
  reason := reason
  deviceName := ""
  features := 0
  hostPublicKey := []
  hostProof := []
  videoCodec := VideoCodec.unspecified.toInt
  passwordRequired := passwordRequired

def helloAckReject (reason : String) : Envelope :=
  envelope (.helloAck (rejectingAck reason false))

def helloAckPasswordRequired (reason : String) : Envelope :=
  envelope (.helloAck (rejectingAck reason true))

def pong (tMicros : Nat) : Envelope := envelope (.pong tMicros)

def fileOffer (transferId name : String) (size : Nat) (mime : String) : Envelope :=
  envelope (.fileOffer { transferId, name, size, mime })

def fileChunk (transferId : String) (offset : Nat) (data : Bytes) : Envelope :=
  envelope (.fileChunk { transferId, offset, data })

def fileAck (transferId : String) (offset : Nat) : Envelope :=
  envelope (.fileAck { transferId, offset })

def fileComplete (transferId : String) (sha256 : Bytes) : Envelope :=
  envelope (.fileComplete { transferId, sha256 })

def fileCancel (transferId reason : String) : Envelope :=
  envelope (.fileCancel { transferId, reason })

def audioFrame (opus : Bytes) (seq : Nat) : Envelope := envelope (.audio opus seq)

def displayList (displays : List DisplayDescriptor) : Envelope :=
  envelope (.displayList displays)

/-- UTF-8 bytes, by characters, so that closed runs evaluate. -/
def utf8 (s : String) : Bytes := s.toList.flatMap String.utf8EncodeChar

def fromUtf8 (bytes : Bytes) : Option String := String.fromUTF8? ⟨bytes.toArray⟩

theorem fromUtf8_eq_some_iff {bytes : Bytes} {s : String} :
    fromUtf8 bytes = some s ↔ utf8 s = bytes := by
  have same (s : String) : s.toByteArray = (utf8 s).toByteArray := String.utf8Encode_toList.symm
  have array : (⟨bytes.toArray⟩ : ByteArray) = bytes.toByteArray :=
    ByteArray.ext List.data_toByteArray.symm
  rw [fromUtf8, array]
  unfold String.fromUTF8?
  constructor
  · intro read
    split at read
    next valid =>
      obtain rfl := Option.some.inj read
      have whole : bytes.toByteArray = (utf8 _).toByteArray := same (.fromUTF8 _ valid)
      simpa using (congrArg (fun a => a.data.toList) whole).symm
    next => cases read
  · rintro rfl
    have valid : (utf8 s).toByteArray.IsValidUTF8 := same s ▸ s.isValidUTF8
    rw [dif_pos valid]
    exact congrArg some (String.toByteArray_inj.mp (same s).symm)

theorem fromUtf8_utf8 (text : String) : fromUtf8 (utf8 text) = some text :=
  fromUtf8_eq_some_iff.mpr rfl

def fnv1a (bytes : Bytes) : UInt64 :=
  bytes.foldl (fun h b => (h ^^^ b.toUInt64) * 0x100000001b3) 0xcbf29ce484222325

def clipboardText (text : String) (seq : Nat) : Envelope :=
  envelope (.clipboard {
    kind := clipboardKindText, data := utf8 text, seq, originHash := fnv1a (utf8 text) })

/-- A message that rejects a `Hello`. -/
def Envelope.rejectsHello (env : Envelope) : Bool :=
  match env.payload with
  | some (.helloAck a) => !a.accepted
  | _ => false

@[simp] theorem helloAckReject_rejects (reason : String) :
    (helloAckReject reason).rejectsHello = true := rfl

@[simp] theorem helloAckPasswordRequired_rejects (reason : String) :
    (helloAckPasswordRequired reason).rejectsHello = true := rfl

example : checkCompatibility 2 =
    .error "incompatible protocol major: local=1 remote=2" := by decide

end ReachMyDevice
