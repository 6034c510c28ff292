import ReachMyDevice.Identity

/-!
# The transport driver

One pass of the event loop drains commands, then connection events, then reads;
a rebuild is decided between the last two. A label is one turn of one of these
loops, and carries what the WebRTC library and the network decide in it.
-/
namespace ReachMyDevice

inductive SignalMsg (J : Type)
  | offer (json : J)
  | answer (json : J)
  | candidate (line : String)
  deriving DecidableEq, Repr

structure VideoFrame where
  annexb : Bytes
  isKeyframe : Bool
  tsMicros : Nat
  deriving DecidableEq, Repr

inductive DriverCmd (J : Type)
  | video (frame : VideoFrame)
  | data (bytes : Wire)
  | signal (msg : SignalMsg J)
  | iceRestart
  | shutdown
  deriving DecidableEq, Repr

inductive TransportEvent (J : Type)
  | localSignal (msg : SignalMsg J)
  | connected
  | disconnected
  | video (annexb : Bytes) (tsHint : Nat)
  | data (bytes : Wire)
  | keyframeRequested
  deriving DecidableEq, Repr

/-- An event that tells nothing of the connection and carries no message. -/
def TransportEvent.plain {J : Type} : TransportEvent J → Bool
  | .connected | .disconnected | .data _ => false
  | _ => true

inductive ConnectionState
  | new
  | connecting
  | connected
  | disconnected
  | failed
  | closed
  deriving DecidableEq, Repr

inductive PcEvent
  | connectionStateChange (s : ConnectionState)
  /-- `none`: the candidate has no JSON form. -/
  | iceCandidate (candidate : Option String)
  | dataChannelOpen (id : Nat)
  | other
  deriving DecidableEq, Repr

inductive RtcMessage
  /-- The access units the sample builder completes with this packet. -/
  | rtpPacket (samples : List (Bytes × Nat))
  | dataChannelMessage (bytes : Wire)
  | rtcpPacket (wantsKeyframe : Bool)
  deriving DecidableEq, Repr

/-- What the library makes of session descriptions. -/
structure Rtc (J : Type) where
  createOffer : Nat → J
  createAnswer : Nat → J → J
  sdp : J → Option String

/-- For closed runs: a description is its SDP text, and has one fingerprint for each role. -/
def sampleRtc : Rtc String where
  createOffer _ := "a=fingerprint:sha-256 00"
  createAnswer _ _ := "a=fingerprint:sha-256 AB"
  sdp := some

/-- A peer connection: what was applied to it, and whether its handshake is done. -/
structure Pc (J : Type) where
  id : Nat
  localDescription : Option J
  remoteDescription : Option J
  remoteCandidates : List String
  established : Bool
  deriving DecidableEq, Repr

/-- How the library takes a remote description. -/
inductive SetRemote
  /-- Not parsed, or refused: nothing changes. -/
  | rejected
  /-- An offer was taken, but no answer could be made to it. -/
  | unanswered
  /-- `refusedAt`: the place of the first own candidate the library refuses. -/
  | applied (refusedAt : Option Nat)
  deriving DecidableEq, Repr

def SetRemote.refusedAt : SetRemote → Option Nat
  | .applied refusedAt => refusedAt
  | .rejected | .unanswered => none

inductive Phase
  | commands
  | events
  | reads
  | stopped
  deriving DecidableEq, Repr

structure Driver (J : Type) where
  isHost : Bool
  pc : Pc J
  phase : Phase
  connected : Bool
  dataChannelId : Option Nat
  pendingLocalCandidates : List String
  remoteDescriptionSet : Bool
  pendingRemoteCandidates : List String
  negotiatedOnce : Bool
  rebuild : Bool
  pendingOffer : Option J
  deriving DecidableEq, Repr

inductive DriverOut (J : Type)
  | emit (ev : TransportEvent J)
  | writeRtp (frame : VideoFrame)
  | dataChannelSend (id : Nat) (bytes : Wire)
  deriving DecidableEq, Repr

inductive DriverLabel (J : Type)
  | command (cmd : DriverCmd J) (outcome : SetRemote)
  /-- `try_recv` found the queue empty. -/
  | commandsDone
  /-- The handshake of the current connection completes. -/
  | established
  | event (e : PcEvent)
  /-- `poll_event` is empty. On a rebuild: the candidates gathered for the new
  connection (`none`: it cannot be built), and how it takes them and the pending offer. -/
  | eventsDone (gathered : Option (List String)) (outcome : SetRemote)
  | read (m : RtcMessage)
  | readsDone
  /-- The library reports an error that ends the thread. -/
  | fault
  deriving DecidableEq, Repr

namespace Driver
variable {J : Type}

abbrev Result (J : Type) := Driver J × List (DriverOut J)

def emitCandidate (line : String) : DriverOut J := .emit (.localSignal (.candidate line))

def addRemoteCandidates (d : Driver J) (lines : List String) : Driver J :=
  { d with pc := { d.pc with remoteCandidates := d.pc.remoteCandidates ++ lines } }

def flushRemoteCandidates (d : Driver J) : Driver J :=
  { d.addRemoteCandidates d.pendingRemoteCandidates with pendingRemoteCandidates := [] }

/-- The description is set on the connection. -/
def setRemote (d : Driver J) (json : J) : Driver J :=
  { d with pc := { d.pc with remoteDescription := some json }, remoteDescriptionSet := true }

/-- The answer is set and emitted, then the own candidates are added and trickled; an
own candidate that is refused ends the function early. -/
def answerOffer (rtc : Rtc J) (d : Driver J) (json : J) (refusedAt : Option Nat) : Result J :=
  let answer := rtc.createAnswer d.pc.id json
  let answered :=
    { d with pc := { d.pc with localDescription := some answer }, negotiatedOnce := true,
             pendingLocalCandidates := [] }
  let out := .emit (.localSignal (.answer answer))
  match refusedAt with
  | none => (answered.flushRemoteCandidates, out :: d.pendingLocalCandidates.map emitCandidate)
  | some n => (answered, out :: (d.pendingLocalCandidates.take n).map emitCandidate)

def applySignal (rtc : Rtc J) (d : Driver J) (msg : SignalMsg J) (outcome : SetRemote) : Result J :=
  match msg with
  | .offer json =>
    if d.negotiatedOnce then ({ d with rebuild := true, pendingOffer := some json }, [])
    else match outcome with
      | .rejected => (d, [])
      | .unanswered => (d.setRemote json, [])
      | .applied refusedAt => answerOffer rtc (d.setRemote json) json refusedAt
  | .answer json =>
    if d.negotiatedOnce then ({ d with rebuild := true, pendingOffer := none }, [])
    else match outcome with
      | .rejected | .unanswered => (d, [])
      | .applied _ => ({ d.setRemote json with negotiatedOnce := true }.flushRemoteCandidates, [])
  | .candidate line =>
    if d.remoteDescriptionSet then (d.addRemoteCandidates [line], [])
    else ({ d with pendingRemoteCandidates := d.pendingRemoteCandidates ++ [line] }, [])

def sendData (d : Driver J) (bytes : Wire) : List (DriverOut J) :=
  match d.dataChannelId with
  | none => []
  | some id => [.dataChannelSend id bytes]

/-- One turn of `drain_commands`. Only the host has a video track to write to. -/
def drainCommand (rtc : Rtc J) (d : Driver J) (cmd : DriverCmd J) (outcome : SetRemote) : Result J :=
  match cmd with
  | .video frame => (d, if d.isHost then [.writeRtp frame] else [])
  | .data bytes => (d, d.sendData bytes)
  | .signal msg => applySignal rtc d msg outcome
  | .iceRestart => (if d.isHost then { d with rebuild := true } else d, [])
  | .shutdown => ({ d with phase := .stopped }, [])

/-- One turn of `drain_events`. -/
def drainEvent (d : Driver J) (e : PcEvent) : Result J :=
  match e with
  | .connectionStateChange .connected =>
    if d.connected then (d, []) else ({ d with connected := true }, [.emit .connected])
  | .connectionStateChange .failed | .connectionStateChange .disconnected
  | .connectionStateChange .closed =>
    if d.connected then ({ d with connected := false, rebuild := true }, [.emit .disconnected])
    else (d, [])
  | .connectionStateChange .new | .connectionStateChange .connecting => (d, [])
  | .iceCandidate none => (d, [])
  | .iceCandidate (some line) => (d, if line = "" then [] else [emitCandidate line])
  | .dataChannelOpen id => ({ d with dataChannelId := some id }, [])
  | .other => (d, [])

/-- One turn of `drain_reads`. Only the viewer has a sample builder. -/
def drainRead (d : Driver J) (m : RtcMessage) : List (DriverOut J) :=
  match m with
  | .rtpPacket samples => if d.isHost then [] else samples.map fun s => .emit (.video s.1 s.2)
  | .dataChannelMessage bytes => [.emit (.data bytes)]
  | .rtcpPacket wantsKeyframe => if wantsKeyframe then [.emit .keyframeRequested] else []

def freshPc (id : Nat) (localDescription : Option J) : Pc J where
  id := id
  localDescription := localDescription
  remoteDescription := none
  remoteCandidates := []
  established := false

/-- The role state that both roles start a peer connection with. -/
def fresh (isHost : Bool) (pc : Pc J) (pendingLocalCandidates : List String) : Driver J where
  isHost := isHost
  pc := pc
  phase := .commands
  connected := false
  dataChannelId := none
  pendingLocalCandidates := pendingLocalCandidates
  remoteDescriptionSet := false
  pendingRemoteCandidates := []
  negotiatedOnce := false
  rebuild := false
  pendingOffer := none

/-- One iteration of the loop of `run_host`: the offer and the candidates go out at once.
An own candidate that is refused ends the thread. -/
def runHost (rtc : Rtc J) (id : Nat) (gathered : List String) (refusedAt : Option Nat) : Result J :=
  let offer := rtc.createOffer id
  let d := fresh true (freshPc id (some offer)) []
  let out := .emit (.localSignal (.offer offer))
  match refusedAt with
  | none => (d, out :: gathered.map emitCandidate)
  | some n => ({ d with phase := .stopped }, out :: (gathered.take n).map emitCandidate)

/-- One iteration of the loop of `run_viewer`, with the offer that caused the rebuild. -/
def runViewer (rtc : Rtc J) (id : Nat) (gathered : List String) (pending : Option J)
    (outcome : SetRemote) : Result J :=
  let d := fresh false (freshPc id none) gathered
  match pending with
  | none => (d, [])
  | some json => applySignal rtc d (.offer json) outcome

/-- The peer connection that replaces the closed one. -/
def rebuilt (rtc : Rtc J) (d : Driver J) (gathered : Option (List String)) (outcome : SetRemote) :
    Result J :=
  match gathered with
  | none => ({ d with phase := .stopped }, [])
  | some lines =>
    if d.isHost then runHost rtc (d.pc.id + 1) lines outcome.refusedAt
    else runViewer rtc (d.pc.id + 1) lines d.pendingOffer outcome

def step (rtc : Rtc J) (d : Driver J) : DriverLabel J → Option (Result J)
  | .command cmd outcome =>
    if d.phase = .commands then some (drainCommand rtc d cmd outcome) else none
  | .commandsDone => if d.phase = .commands then some ({ d with phase := .events }, []) else none
  | .established =>
    if d.phase = .stopped then none
    else some ({ d with pc := { d.pc with established := true } }, [])
  | .event e => if d.phase = .events then some (drainEvent d e) else none
  | .eventsDone gathered outcome =>
    if d.phase = .events then
      if d.rebuild then some (rebuilt rtc d gathered outcome)
      else some ({ d with phase := .reads }, [])
    else none
  | .read m => if d.phase = .reads then some (d, drainRead d m) else none
  | .readsDone => if d.phase = .reads then some ({ d with phase := .commands }, []) else none
  | .fault => if d.phase = .reads then some ({ d with phase := .stopped }, []) else none

/-- The first peer connection of a driver. -/
def first (rtc : Rtc J) (isHost : Bool) (gathered : List String) : Result J :=
  if isHost then runHost rtc 0 gathered none else runViewer rtc 0 gathered none .rejected

/-- The certificate fingerprint of the peer a connection is set up with. -/
def peerFingerprint (rtc : Rtc J) (pc : Pc J) : Option String :=
  pc.remoteDescription.bind (fingerprintFromSessionJson rtc.sdp)

/-- What is assumed of the library: a side that has made an offer takes only answers and
the other only offers; a handshake needs the peer's fingerprint; `Connected` comes after
the handshake, and data from the peer after `Connected`. -/
def libAllows (rtc : Rtc J) (d : Driver J) : DriverLabel J → Prop
  | .command (.signal (.offer _)) outcome => d.isHost = true → outcome = .rejected
  | .command (.signal (.answer _)) outcome => d.isHost = false → outcome = .rejected
  | .established => (peerFingerprint rtc d.pc).isSome = true
  | .event (.connectionStateChange .connected) => d.pc.established = true
  | .read (.dataChannelMessage _) => (peerFingerprint rtc d.pc).isSome = true ∧ d.connected = true
  | _ => True

instance (rtc : Rtc J) (d : Driver J) (l : DriverLabel J) : Decidable (libAllows rtc d l) := by
  unfold libAllows
  split <;> infer_instance

end Driver
end ReachMyDevice
