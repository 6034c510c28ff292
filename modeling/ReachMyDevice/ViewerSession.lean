import ReachMyDevice.ChannelBinding

/-!
# The viewer session

The pump thread: signaling and passwords go to the driver, transport events come
back, and the application sees a stream of updates.
-/
namespace ReachMyDevice

structure ViewerConfig where
  deviceName : String
  identity : Option DeviceIdentity

structure ViewerEnv (D H : Type) where
  cfg : ViewerConfig
  crypto : Crypto
  disk : DiskOps D H

/-- For closed runs: an anonymous viewer. -/
def sampleViewerEnv : ViewerEnv Unit Unit where
  cfg := { deviceName := "viewer", identity := none }
  crypto := sampleCrypto
  disk := FileTransfers.sampleDisk

/-- An acknowledgement of the host with key bytes 9 over a fingerprint. -/
def sampleAck (fingerprint : String) : Wire :=
  encode (helloAckOkSigned "host" 0 (List.replicate 32 9)
    ((sampleIdentity 9).accessProof (utf8 fingerprint)) .h264)

/-- A decoded frame is not looked into. -/
inductive ViewerUpdate
  | connected
  | disconnected
  | frame (width height : Nat)
  | paired (ok : Bool)
  | passwordRequired (reason : String)
  | latency (micros : Nat)
  | file (ev : FileEvent)
  | displays (ds : List DisplayDescriptor)
  | hostIdentity (publicKey : Bytes) (deviceId : String) (verified : Bool)
  deriving DecidableEq, Repr

inductive ViewerEffect
  | update (u : ViewerUpdate)
  | sendData (env : Envelope)
  | decode (annexb : Bytes) (tsHint : Nat)
  | applyRemote (u : ClipboardUpdate)
  deriving DecidableEq, Repr

structure ViewerSession (D H : Type) where
  localFingerprint : Option String
  hostFingerprint : Option String
  files : FileTransfers H
  disk : D
  audioRx : Nat

/-- Empty passwords are not attached. -/
def buildViewerHello (cfg : ViewerConfig) (localFingerprint password : Option String) : Envelope :=
  let base :=
    match cfg.identity with
    | some id =>
      helloAuthenticated cfg.deviceName .viewer 0 id.publicKeyBytes
        (id.accessProof (bindingBytes localFingerprint))
    | none => hello cfg.deviceName .viewer 0
  match password with
  | some pw => if pw = "" then base else withPassword base pw
  | none => base

namespace ViewerSession
variable {J D H : Type}

def new (downloadDir : String) (disk : D) : ViewerSession D H where
  localFingerprint := none
  hostFingerprint := none
  files := .new downloadDir
  disk := disk
  audioRx := 0

abbrev Result (D H : Type) := ViewerSession D H × List ViewerEffect

/-- Whether the host's proof is accepted, and what is reported of it. -/
def checkHostProof (crypto : Crypto) (hostFingerprint : Option String) (ack : HelloAck) :
    Bool × List ViewerUpdate :=
  if !ack.hostPublicKey.isEmpty && !ack.hostProof.isEmpty then
    match verifyAccessProof crypto ack.hostPublicKey ack.hostProof (bindingBytes hostFingerprint) with
    | .ok deviceId => (true, [.hostIdentity ack.hostPublicKey deviceId true])
    | .error _ => (false, [.hostIdentity ack.hostPublicKey "" false])
  else (true, [])

def handleHelloAck (crypto : Crypto) (hostFingerprint : Option String) (ack : HelloAck) :
    List ViewerUpdate :=
  if ack.passwordRequired then [.passwordRequired ack.reason]
  else
    let hostOk := checkHostProof crypto hostFingerprint ack
    hostOk.2 ++ [.paired (hostOk.1 && ack.accepted)]

def fileEffect : FileOut → ViewerEffect
  | .out env => .sendData env
  | .event ev => .update (.file ev)

/-- `now` is the monotonic clock in microseconds. -/
def handleData (env : ViewerEnv D H) (s : ViewerSession D H) (now : Nat) (bytes : Wire) :
    Result D H :=
  match bytes with
  | none | some { payload := none, .. } => (s, [])
  | some { payload := some payload, .. } =>
    match payload with
    | .helloAck ack => (s, (handleHelloAck env.crypto s.hostFingerprint ack).map .update)
    | .pong tMicros => (s, [.update (.latency (now - tMicros))])
    | .clipboard u => (s, [.applyRemote u])
    | .displayList ds => (s, [.update (.displays ds)])
    | .audio _ _ => ({ s with audioRx := s.audioRx + 1 }, [])
    | payload =>
      match s.files.handle env.crypto env.disk s.disk payload with
      | some (files, disk, out) => ({ s with files, disk }, out.map fileEffect)
      | none => (s, [])

/-- A signaling message on its way to the driver. -/
def onSignal (sdp : J → Option String) (s : ViewerSession D H) (msg : SignalMsg J) :
    ViewerSession D H :=
  { s with hostFingerprint := (offerFingerprint sdp msg).or s.hostFingerprint }

def onPassword (env : ViewerEnv D H) (s : ViewerSession D H) (pw : String) : List ViewerEffect :=
  [.sendData (buildViewerHello env.cfg s.localFingerprint (some pw))]

def onEvent (env : ViewerEnv D H) (sdp : J → Option String) (s : ViewerSession D H) (now : Nat) :
    TransportEvent J → Result D H
  | .localSignal msg =>
    ({ s with localFingerprint := (answerFingerprint sdp msg).or s.localFingerprint }, [])
  | .connected =>
    (s, [.sendData (buildViewerHello env.cfg s.localFingerprint none), .update .connected])
  | .disconnected => (s, [.update .disconnected])
  | .video annexb tsHint => (s, [.decode annexb tsHint])
  | .data bytes => s.handleData env now bytes
  | .keyframeRequested => (s, [])

theorem onEvent_hostFingerprint (env : ViewerEnv D H) (sdp : J → Option String)
    (s : ViewerSession D H) (now : Nat) (ev : TransportEvent J) :
    (s.onEvent env sdp now ev).1.hostFingerprint = s.hostFingerprint := by
  cases ev with
  | data bytes =>
      simp only [onEvent, handleData]
      split
      · rfl
      · rfl
      · split
        · rfl
        · rfl
        · rfl
        · rfl
        · rfl
        · split <;> rfl
  | _ => rfl

/-- A key is reported as verified only by a proof over the fingerprint then held. -/
theorem handleHelloAck_verified {crypto : Crypto} {hostFingerprint : Option String}
    {ack : HelloAck} {key : Bytes} {id : String}
    (reported : .hostIdentity key id true ∈ handleHelloAck crypto hostFingerprint ack) :
    ack.hostPublicKey = key ∧
      verifyAccessProof crypto key ack.hostProof (bindingBytes hostFingerprint) = .ok id := by
  unfold handleHelloAck at reported
  split at reported
  · simp at reported
  · simp only [checkHostProof] at reported
    split at reported
    · split at reported
      · rename_i deviceId verified
        simp only [List.cons_append, List.nil_append, List.mem_cons, ViewerUpdate.hostIdentity.injEq,
          and_true, List.not_mem_nil, or_false, reduceCtorEq] at reported
        obtain ⟨rfl, rfl⟩ := reported
        exact ⟨rfl, verified⟩
      · simp at reported
    · simp at reported

def helloAck? : Wire → Option HelloAck
  | some { payload := some (.helloAck ack), .. } => some ack
  | _ => none

theorem handleData_verified {env : ViewerEnv D H} {s : ViewerSession D H} {now : Nat} {bytes : Wire}
    {key : Bytes} {id : String}
    (reported : .update (.hostIdentity key id true) ∈ (s.handleData env now bytes).2) :
    ∃ ack, helloAck? bytes = some ack ∧ ack.hostPublicKey = key ∧
      verifyAccessProof env.crypto key ack.hostProof (bindingBytes s.hostFingerprint) = .ok id := by
  unfold handleData at reported
  split at reported
  · cases reported
  · cases reported
  · split at reported
    · rename_i ack
      obtain ⟨u, told, same⟩ := List.mem_map.mp reported
      cases same
      exact ⟨ack, rfl, handleHelloAck_verified told⟩
    · simp at reported
    · simp at reported
    · simp at reported
    · cases reported
    · split at reported
      · obtain ⟨o, -, same⟩ := List.mem_map.mp reported
        cases o <;> cases same
      · cases reported

end ViewerSession
end ReachMyDevice
