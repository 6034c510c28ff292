import ReachMyDevice.Driver
import ReachMyDevice.FileTransfers
import ReachMyDevice.Input
import ReachMyDevice.Zoom

/-!
# The control messages a host receives

The state of a host session, and what one message from the viewer does to it.
-/
namespace ReachMyDevice

structure HostConfig where
  deviceName : String
  videoCodec : VideoCodec
  requireAuthorization : Bool
  authorizedDeviceIds : List String
  identity : Option DeviceIdentity
  connectPassword : Option String

/-- What a host session calls of the outside. -/
structure HostEnv (D H : Type) where
  cfg : HostConfig
  crypto : Crypto
  disk : DiskOps D H
  keymap : Keymap

/-- For closed runs: only the device with key bytes 7 is allowed, and a password is set. -/
def sampleEnv : HostEnv Unit Unit where
  cfg := {
    deviceName := "host", videoCodec := .h264, requireAuthorization := true,
    authorizedDeviceIds := [sampleDeviceId 7], identity := some (sampleIdentity 1),
    connectPassword := some "taco" }
  crypto := sampleCrypto
  disk := FileTransfers.sampleDisk
  keymap := { hidToEvdev := some, hidToXKeycode := some, hidToMacos := some }

/-- A `Hello` of that device over a fingerprint. -/
def sampleHello (fingerprint password : String) : Wire :=
  encode (withPassword (helloAuthenticated "viewer" .viewer 0 (List.replicate 32 7)
    ((sampleIdentity 7).accessProof (utf8 fingerprint))) password)

/-- What one handler reads from the clock, the capture and the input system. -/
structure Readings where
  nowAtCheck : Nat
  nowAtFailure : Nat
  displays : List DisplayDescriptor
  osOk : Nat → Bool

def Readings.sample : Readings where
  nowAtCheck := 0
  nowAtFailure := 0
  displays := []
  osOk _ := true

/-- Only a `Hello` is let through before the viewer is authorized. -/
def authorizationPermits (payload : Payload) (authorized : Bool) : Bool :=
  authorized || match payload with
    | .hello _ => true
    | _ => false

def viewOnlySuppresses (payload : Payload) (viewOnly : Bool) : Bool :=
  viewOnly && match payload with
    | .input _ => true
    | _ => false

/-- The differences of all pairs of bytes, or-ed together. -/
def ctDiff : Bytes → Bytes → UInt8
  | x :: a, y :: b => (x ^^^ y) ||| ctDiff a b
  | _, _ => 0

def ctEq (a b : Bytes) : Bool := a.length == b.length && ctDiff a b == 0

def verifyConnectPassword (configured : Option String) (supplied : String) : Bool :=
  match configured with
  | none => true
  | some expected => ctEq (utf8 expected) (utf8 supplied)

/-- Times are in nanoseconds. -/
structure PasswordThrottle where
  failures : Nat
  lockedUntil : Option Nat
  deriving DecidableEq, Repr

namespace PasswordThrottle

def throttleAfter : Nat := 3
def throttleMaxSecs : Nat := 30

def new : PasswordThrottle where
  failures := 0
  lockedUntil := none

def locked (t : PasswordThrottle) (now : Nat) : Bool :=
  match t.lockedUntil with
  | none => false
  | some deadline => now < deadline

def recordFailure (t : PasswordThrottle) (now : Nat) : PasswordThrottle :=
  let failures := min (t.failures + 1) (2 ^ 32 - 1)
  if throttleAfter ≤ failures then
    let steps := failures - throttleAfter + 1
    let secs := min (steps * 2) throttleMaxSecs
    { failures, lockedUntil := some (now + secs * 1000000000) }
  else { t with failures }

end PasswordThrottle

def VideoCodec.debug : VideoCodec → String
  | .unspecified => "Unspecified"
  | .h264 => "H264"
  | .av1 => "Av1"

/-- No codec listed means a peer that decodes H.264 only. -/
def checkCodecCompatible (h : Hello) (hostCodec : VideoCodec) : Except String Unit :=
  let supported :=
    if h.supportedVideoCodecs.isEmpty then [VideoCodec.h264.toInt] else h.supportedVideoCodecs
  if hostCodec.toInt ∈ supported then .ok ()
  else .error ("viewer cannot decode the host's video codec (" ++ hostCodec.debug ++
    "); it supports " ++ toString supported)

/-- `binding` is the DTLS fingerprint the proof has to be signed over. -/
def authorize (cfg : HostConfig) (crypto : Crypto) (hello : Hello) (binding : Bytes) :
    Except String Unit :=
  if !cfg.requireAuthorization then .ok ()
  else if hello.publicKey.isEmpty || hello.signature.isEmpty then
    .error "authorization required but viewer sent no identity proof"
  else match verifyAccessProof crypto hello.publicKey hello.signature binding with
    | .error e => .error ("identity proof rejected: " ++ e)
    | .ok deviceId =>
      if deviceId ∈ cfg.authorizedDeviceIds then .ok ()
      else .error ("device " ++ deviceId ++ " is not authorized")

inductive VideoCall
  | resume
  | pause
  | select (id : Nat)
  | setShowCursor (visible : Bool)
  | requestKeyframe
  deriving DecidableEq, Repr

inductive HostStatus
  | waiting
  | active
  | ended
  deriving DecidableEq, Repr

inductive HostEffect
  | sendData (env : Envelope)
  | video (call : VideoCall)
  | os (evs : List OsEvent)
  | applyRemote (u : ClipboardUpdate)
  | file (ev : FileEvent)
  | status (s : HostStatus)
  deriving DecidableEq, Repr

structure HostSession (D H : Type) where
  authorized : Bool
  connected : Bool
  wasAuthorized : Bool
  remoteFingerprint : Option String
  localFingerprint : Option String
  pwThrottle : PasswordThrottle
  viewOnly : Bool
  zoom : CropRect
  injector : Option Injector
  files : FileTransfers H
  disk : D

namespace HostSession
variable {D H : Type}

def new (injector : Option Injector) (downloadDir : String) (disk : D) : HostSession D H where
  authorized := false
  connected := false
  wasAuthorized := false
  remoteFingerprint := none
  localFingerprint := none
  pwThrottle := .new
  viewOnly := false
  zoom := .full
  injector := injector
  files := .new downloadDir
  disk := disk

abbrev Result (D H : Type) := HostSession D H × List HostEffect

/-- The checks before the connection password. -/
def decision (env : HostEnv D H) (s : HostSession D H) (protocolMajor : Nat) (h : Hello) :
    Except String Unit :=
  match checkCompatibility protocolMajor with
  | .error e => .error e
  | .ok () =>
    match checkCodecCompatible h env.cfg.videoCodec with
    | .error e => .error e
    | .ok () => authorize env.cfg env.crypto h (bindingBytes s.remoteFingerprint)

def helloAckFor (env : HostEnv D H) (s : HostSession D H) : Envelope :=
  match env.cfg.identity with
  | some id =>
    helloAckOkSigned env.cfg.deviceName 0 id.publicKeyBytes
      (id.accessProof (bindingBytes s.localFingerprint)) env.cfg.videoCodec
  | none => helloAckOk env.cfg.deviceName 0 env.cfg.videoCodec

def reject (s : HostSession D H) (ack : Envelope) : Result D H :=
  ({ s with authorized := false }, [.sendData ack])

def accept (env : HostEnv D H) (s : HostSession D H) (r : Readings) (h : Hello) : Result D H :=
  let clientCursor := h.features &&& featureClientCursor ≠ 0
  ({ s with authorized := true, pwThrottle := .new },
    [.video (.setShowCursor (!clientCursor)), .video .resume, .sendData (helloAckFor env s),
     .sendData (displayList r.displays)])

def handleHello (env : HostEnv D H) (s : HostSession D H) (r : Readings) (protocolMajor : Nat)
    (h : Hello) : Result D H :=
  match decision env s protocolMajor h with
  | .error reason => s.reject (helloAckReject reason)
  | .ok () =>
    if s.pwThrottle.locked r.nowAtCheck then
      s.reject (helloAckPasswordRequired "too many password attempts; wait and retry")
    else if !verifyConnectPassword env.cfg.connectPassword h.password then
      { s with pwThrottle := s.pwThrottle.recordFailure r.nowAtFailure }.reject
        (helloAckPasswordRequired "connection password required")
    else s.accept env r h

def releaseAll (s : HostSession D H) (r : Readings) : Result D H :=
  match s.injector with
  | none => (s, [])
  | some i => ({ s with injector := some (i.releaseAll r.osOk).1 }, [.os (i.releaseAll r.osOk).2])

def handleInput (env : HostEnv D H) (s : HostSession D H) (r : Readings)
    (event : Option InputEvent) : Result D H :=
  match s.injector, event with
  | some i, some ev =>
    let (i, evs) := i.inject env.keymap r.osOk (s.zoom.sanitized.remap ev)
    ({ s with injector := some i }, [.os evs])
  | _, _ => (s, [])

def handleViewOnly (s : HostSession D H) (r : Readings) (enabled : Bool) : Result D H :=
  let s := { s with viewOnly := enabled }
  if enabled then s.releaseAll r else (s, [])

/-- The messages that are not file transfers, past both gates. -/
def dispatch (env : HostEnv D H) (s : HostSession D H) (r : Readings) (protocolMajor : Nat) :
    Payload → Result D H
  | .hello h => s.handleHello env r protocolMajor h
  | .input event => s.handleInput env r event
  | .ping tMicros => (s, [.sendData (pong tMicros)])
  | .clipboard u => (s, [.applyRemote u])
  | .requestKeyframe => (s, [.video .requestKeyframe])
  | .selectDisplay id => (s, [.video (.select id)])
  | .viewOnly enabled => s.handleViewOnly r enabled
  | .setZoom z => ({ s with zoom := (CropRect.ofSetZoom z).sanitized }, [])
  | _ => (s, [])

def fileEffect : FileOut → HostEffect
  | .out env => .sendData env
  | .event ev => .file ev

def handleControl (env : HostEnv D H) (s : HostSession D H) (r : Readings) (bytes : Wire) :
    Result D H :=
  match bytes with
  | none | some { payload := none, .. } => (s, [])
  | some { protocolMajor, payload := some payload, .. } =>
    if !authorizationPermits payload s.authorized then (s, [])
    else if viewOnlySuppresses payload s.viewOnly then (s, [])
    else match s.files.handle env.crypto env.disk s.disk payload with
      | some (files, disk, out) => ({ s with files, disk }, out.map fileEffect)
      | none => s.dispatch env r protocolMajor payload

/-- The `Hello` a message carries. -/
def hello? : Wire → Option (Nat × Hello)
  | some { protocolMajor, payload := some (.hello h), .. } => some (protocolMajor, h)
  | _ => none

/-- Everything that only connection events and `Hello` messages change. -/
structure SameViewer (s s' : HostSession D H) : Prop where
  authorized : s'.authorized = s.authorized
  connected : s'.connected = s.connected
  wasAuthorized : s'.wasAuthorized = s.wasAuthorized
  remoteFingerprint : s'.remoteFingerprint = s.remoteFingerprint
  localFingerprint : s'.localFingerprint = s.localFingerprint
  pwThrottle : s'.pwThrottle = s.pwThrottle

theorem releaseAll_sameViewer (s : HostSession D H) (r : Readings) :
    SameViewer s (s.releaseAll r).1 := by
  unfold releaseAll
  split <;> exact ⟨rfl, rfl, rfl, rfl, rfl, rfl⟩

theorem handleInput_sameViewer (env : HostEnv D H) (s : HostSession D H) (r : Readings)
    (event : Option InputEvent) : SameViewer s (s.handleInput env r event).1 := by
  unfold handleInput
  split <;> exact ⟨rfl, rfl, rfl, rfl, rfl, rfl⟩

theorem handleViewOnly_sameViewer (s : HostSession D H) (r : Readings) (enabled : Bool) :
    SameViewer s (s.handleViewOnly r enabled).1 := by
  unfold handleViewOnly
  split
  · obtain ⟨a, c, w, rf, lf, t⟩ := releaseAll_sameViewer { s with viewOnly := enabled } r
    exact ⟨a, c, w, rf, lf, t⟩
  · exact ⟨rfl, rfl, rfl, rfl, rfl, rfl⟩

theorem dispatch_sameViewer (env : HostEnv D H) (s : HostSession D H) (r : Readings) (major : Nat)
    {p : Payload} (other : ∀ h, p ≠ .hello h) : SameViewer s (s.dispatch env r major p).1 := by
  cases p with
  | hello h => exact absurd rfl (other h)
  | input event => exact handleInput_sameViewer env s r event
  | viewOnly enabled => exact handleViewOnly_sameViewer s r enabled
  | _ => exact ⟨rfl, rfl, rfl, rfl, rfl, rfl⟩

/-- Every check of a `Hello`. -/
def helloPasses (env : HostEnv D H) (s : HostSession D H) (r : Readings) (major : Nat)
    (h : Hello) : Prop :=
  s.decision env major h = .ok () ∧ s.pwThrottle.locked r.nowAtCheck = false ∧
    verifyConnectPassword env.cfg.connectPassword h.password = true

instance (env : HostEnv D H) (s : HostSession D H) (r : Readings) (major : Nat) (h : Hello) :
    Decidable (s.helloPasses env r major h) := inferInstanceAs (Decidable (_ ∧ _ ∧ _))

/-- An accepted viewer of a host that requires it has proved an allowed device. -/
theorem helloPasses_proof {env : HostEnv D H} {s : HostSession D H} {r : Readings} {major : Nat}
    {h : Hello} (required : env.cfg.requireAuthorization = true)
    (passes : s.helloPasses env r major h) :
    ∃ id ∈ env.cfg.authorizedDeviceIds, verifyAccessProof env.crypto h.publicKey h.signature
      (bindingBytes s.remoteFingerprint) = .ok id := by
  have passed := passes.1
  unfold decision at passed
  split at passed
  · cases passed
  · split at passed
    · cases passed
    · simp only [authorize, required] at passed
      split at passed
      · rename_i open_
        cases open_
      · split at passed
        · cases passed
        · split at passed
          · cases passed
          · rename_i id proved
            split at passed
            · rename_i allowed
              exact ⟨id, allowed, proved⟩
            · cases passed

theorem handleHello_passes {env : HostEnv D H} {s : HostSession D H} {r : Readings} {major : Nat}
    {h : Hello} (passes : s.helloPasses env r major h) :
    s.handleHello env r major h = s.accept env r h := by
  obtain ⟨passed, unlocked, password⟩ := passes
  simp only [handleHello, passed, unlocked, password]
  rfl

theorem handleHello_fails {env : HostEnv D H} {s : HostSession D H} {r : Readings} {major : Nat}
    {h : Hello} (fails : ¬ s.helloPasses env r major h) :
    ∃ t ack, Envelope.rejectsHello ack = true ∧
      s.handleHello env r major h = { s with pwThrottle := t }.reject ack := by
  unfold handleHello
  split
  · exact ⟨s.pwThrottle, _, helloAckReject_rejects _, rfl⟩
  · rename_i passed
    by_cases locked : s.pwThrottle.locked r.nowAtCheck = true
    · simp only [locked, if_true]
      exact ⟨s.pwThrottle, _, helloAckPasswordRequired_rejects _, rfl⟩
    · have password : verifyConnectPassword env.cfg.connectPassword h.password ≠ true :=
        fun password => fails ⟨passed, Bool.eq_false_iff.mpr locked, password⟩
      simp only [locked, password]
      exact ⟨_, _, helloAckPasswordRequired_rejects _, rfl⟩

/-- The flag after a `Hello` is its verdict. -/
theorem handleHello_authorized (env : HostEnv D H) (s : HostSession D H) (r : Readings)
    (major : Nat) (h : Hello) :
    (s.handleHello env r major h).1.authorized = true ↔ s.helloPasses env r major h := by
  by_cases passes : s.helloPasses env r major h
  · rw [handleHello_passes passes]
    exact ⟨fun _ => passes, fun _ => rfl⟩
  · obtain ⟨t, ack, -, same⟩ := handleHello_fails passes
    rw [same]
    exact ⟨fun authorized => Bool.noConfusion authorized, fun passes' => absurd passes' passes⟩

theorem handleHello_wasAuthorized (env : HostEnv D H) (s : HostSession D H) (r : Readings)
    (major : Nat) (h : Hello) :
    (s.handleHello env r major h).1.wasAuthorized = s.wasAuthorized := by
  by_cases passes : s.helloPasses env r major h
  · rw [handleHello_passes passes]
    rfl
  · obtain ⟨t, ack, -, same⟩ := handleHello_fails passes
    rw [same]
    rfl

theorem handleHello_remoteFingerprint (env : HostEnv D H) (s : HostSession D H) (r : Readings)
    (major : Nat) (h : Hello) :
    (s.handleHello env r major h).1.remoteFingerprint = s.remoteFingerprint := by
  by_cases passes : s.helloPasses env r major h
  · rw [handleHello_passes passes]
    rfl
  · obtain ⟨t, ack, -, same⟩ := handleHello_fails passes
    rw [same]
    rfl

theorem handleControl_hello (env : HostEnv D H) (s : HostSession D H) (r : Readings) {bytes : Wire}
    {major : Nat} {h : Hello} (carried : hello? bytes = some (major, h)) :
    s.handleControl env r bytes = s.handleHello env r major h := by
  match bytes, carried with
  | some ⟨_, _, some (.hello _)⟩, rfl =>
      simp [handleControl, authorizationPermits, viewOnlySuppresses, FileTransfers.handle, dispatch]

/-- Any other message is dropped, or an authorized viewer's and leaves the viewer alone. -/
theorem handleControl_other (env : HostEnv D H) (s : HostSession D H) (r : Readings) {bytes : Wire}
    (other : hello? bytes = none) :
    s.handleControl env r bytes = (s, []) ∨
      (s.authorized = true ∧ SameViewer s (s.handleControl env r bytes).1) := by
  match bytes, other with
  | none, _ => exact .inl rfl
  | some ⟨_, _, none⟩, _ => exact .inl rfl
  | some ⟨major, _, some p⟩, other =>
      have notHello : ∀ h, p ≠ .hello h := by
        rintro h rfl
        cases other
      cases authorized : s.authorized with
      | false =>
          have gated : authorizationPermits p s.authorized = false := by
            cases p with
            | hello h => exact absurd rfl (notHello h)
            | _ => simp [authorizationPermits, authorized]
          simp only [handleControl, gated]
          exact .inl rfl
      | true =>
          refine .inr ⟨rfl, ?_⟩
          unfold handleControl
          split
          · exact ⟨rfl, rfl, rfl, rfl, rfl, rfl⟩
          · exact ⟨rfl, rfl, rfl, rfl, rfl, rfl⟩
          · rename_i same
            cases same
            split
            · exact ⟨rfl, rfl, rfl, rfl, rfl, rfl⟩
            · split
              · exact ⟨rfl, rfl, rfl, rfl, rfl, rfl⟩
              · split
                · exact ⟨rfl, rfl, rfl, rfl, rfl, rfl⟩
                · exact dispatch_sameViewer env s r _ notHello

/-- The verdict on the `Hello` a message carries. -/
def verdict (env : HostEnv D H) (s : HostSession D H) (r : Readings) (bytes : Wire) : Option Bool :=
  (hello? bytes).map fun m => decide (s.helloPasses env r m.1 m.2)

/-- The flag after a message is its verdict, if there is one. -/
theorem handleControl_authorized (env : HostEnv D H) (s : HostSession D H) (r : Readings)
    (bytes : Wire) :
    (s.handleControl env r bytes).1.authorized = (s.verdict env r bytes).getD s.authorized := by
  unfold verdict
  cases carried : hello? bytes with
  | none =>
      rcases handleControl_other env s r carried with dropped | ⟨-, same⟩
      · rw [dropped]
        rfl
      · exact same.authorized
  | some m =>
      rw [handleControl_hello env s r carried, Bool.eq_iff_iff]
      simpa using handleHello_authorized env s r m.1 m.2

end HostSession
end ReachMyDevice
