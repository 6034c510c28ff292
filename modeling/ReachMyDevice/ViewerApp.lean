import ReachMyDevice.KnownPeers
import ReachMyDevice.ViewerSession

/-!
# The native viewer

The screens of the application, the jobs of its background thread and the session
it holds. What only a page shows (the pairing status, the latency, the transfer
line, fullscreen) is left out. Outcomes of the network and of files are arguments.
-/
namespace ReachMyDevice

/-- A device of the account, as the rendezvous server lists it. -/
structure DeviceInfo where
  deviceId : String
  name : String
  publicKey : String
  role : String
  deriving DecidableEq, Repr

def DeviceInfo.isConnectable (d : DeviceInfo) : Bool := d.role = "host" || d.role = "both"

inductive Screen
  | login
  | devices
  | connecting
  | inSession
  | pair
  deriving DecidableEq, Repr

inductive Tofu
  | firstUse
  | trusted
  | changed
  deriving DecidableEq, Repr

inductive ConnState
  | confirm (tofu : Tofu)
  | establishing
  | needPassword (retry : Bool)
  deriving DecidableEq, Repr

def ConnState.confirms : ConnState → Bool
  | .confirm _ => true
  | _ => false

inductive Job
  | signedIn (r : Except String (List DeviceInfo))
  | registered (r : Except String Unit)
  | devices (r : Except String (List DeviceInfo))
  | thisDevice (r : Except String String)
  | deleted (r : Except String String)
  /-- Device id, key and name of the peer. -/
  | paired (r : Except String (String × String × String))
  deriving DecidableEq

/-- A job in flight, by what it was spawned for. -/
inductive JobKind
  | signIn
  | register
  | devices
  | thisDevice
  | delete (deviceId : String)
  | pairing
  deriving DecidableEq, Repr

/-- What the closure of a job can return. -/
def JobKind.returns : JobKind → Job → Bool
  | .signIn, .signedIn _ | .register, .registered _ | .devices, .devices _
  | .thisDevice, .thisDevice _ | .pairing, .paired _ | .delete _, .deleted (.error _) => true
  | .delete id, .deleted (.ok id') => id = id'
  | _, _ => false

/-- A call on the session handle. -/
inductive SessionCall
  | submitPassword (password : String)
  | sendFile (path : String)
  | selectDisplay (id : Nat)
  | requestKeyframe
  | sendInput (event : InputEvent)
  | sendPing
  deriving DecidableEq, Repr

structure ViewerAppEnv where
  thisDeviceId : String
  /-- The table of physical keys, by their names. -/
  winitKeycodeToHid : String → Option Nat

/-- A live session is the calls made on it, newest last. -/
structure ViewerApp where
  screen : Screen
  serverUrl : String
  username : String
  password : String
  account : Option String
  creds : Option (String × String)
  devices : List DeviceInfo
  viewerToken : Option String
  knownPeers : KnownPeers
  pairCode : String
  pairGenerated : Bool
  selectedHost : Option DeviceInfo
  conn : ConnState
  session : Option (List SessionCall)
  paired : Option Bool
  hostPassword : String
  pwSubmitted : Bool
  hostVerified : Option Bool
  viewOnly : Bool
  hudVisible : Bool
  displays : List DisplayDescriptor
  activeDisplay : Nat
  modifiers : Nat
  lastCursor : F64 × F64
  job : Option JobKind
  busy : Option String
  error : Option String
  info : Option String

/-- A text field of a form. -/
inductive Field
  | serverUrl
  | username
  | password
  | pairCode
  | hostPassword
  deriving DecidableEq, Repr

inductive Click
  | edit (field : Field) (text : String)
  | signIn
  | createAccount
  | openPairing
  | signOut
  | refresh
  | registerThisDevice
  /-- Whether the trust store can be read. -/
  | connect (host : DeviceInfo) (reads : Bool)
  | delete (deviceId : String)
  /-- The trust store, the signaling connection and the session may fail. -/
  | confirm (io : PeersIo) (signaling started : Except String Unit)
  /-- "Cancel" or "Back" of the connecting page, "Disconnect" of the session. -/
  | leave
  | submitPassword
  | viewOnly
  | selectDisplay (id : Nat)
  | generateCode (r : Except String String)
  | pair
  | back
  | dismissError
  | dismissInfo
  deriving DecidableEq

inductive WinitMouseButton
  | left
  | right
  | middle
  | other
  deriving DecidableEq, Repr

structure ModifiersState where
  shift : Bool
  control : Bool
  alt : Bool
  super : Bool
  deriving DecidableEq, Repr

/-- Window sizes are those at the event; a key without a code is not mapped. -/
inductive WindowEvent
  | cursorMoved (width height : Nat) (x y : F64)
  | mouseInput (pressed : Bool) (button : WinitMouseButton)
  | lineDelta (x y : F64)
  | pixelDelta (x y : F64)
  | modifiersChanged (mods : ModifiersState)
  | keyboardInput (pressed : Bool) (code : Option String)
  | droppedFile (path : String)
  deriving DecidableEq, Repr

def mapMouseButton : WinitMouseButton → Option Int
  | .left => some 1
  | .right => some 2
  | .middle => some 3
  | .other => none

def mapModifiers (mods : ModifiersState) : Nat :=
  (if mods.shift then 1 else 0) + (if mods.control then 2 else 0) +
    (if mods.alt then 4 else 0) + (if mods.super then 8 else 0)

namespace ViewerApp

/-- Tear down any active session and return to a sensible screen. -/
def leaveSession (s : ViewerApp) : ViewerApp :=
  { s with
    session := none
    selectedHost := none
    paired := none
    hostVerified := none
    viewOnly := false
    hudVisible := true
    displays := []
    activeDisplay := 0
    screen := if s.account.isSome then .devices else .login }

/-- `host_verified` keeps its value. -/
def startSession (s : ViewerApp) : Except String Unit → ViewerApp
  | .ok () =>
    { s with
      session := some []
      paired := none
      hostPassword := ""
      pwSubmitted := false
      conn := .establishing
      screen := .connecting
      error := none }
  | .error e => leaveSession { s with error := some ("failed to start session: " ++ e) }

/-- The reported identity is that of the device the user selected. -/
def dialedOk (s : ViewerApp) (deviceId : String) : Bool :=
  s.selectedHost.any (·.deviceId = deviceId)

/-- The reported key is the one pinned for the reported identity. -/
def pinOk (s : ViewerApp) (reads : Bool) (publicKey : Bytes) (deviceId : String) : Bool :=
  (s.knownPeers.get reads deviceId).any (· = String.ofList (hexEncode publicKey))

def handleHostIdentity (s : ViewerApp) (reads : Bool) (publicKey : Bytes) (deviceId : String)
    (verified : Bool) : ViewerApp :=
  if verified && s.dialedOk deviceId && s.pinOk reads publicKey deviceId then
    { s with hostVerified := some true }
  else
    let why :=
      if !verified then "proof invalid"
      else if !s.dialedOk deviceId then "identity does not match the device you selected"
      else "key does not match the one pinned for this host"
    leaveSession { s with
      hostVerified := some false
      error := some s!"host verification failed ({why}) — refusing (possible MITM)" }

/-- `reads` is whether the trust store can be read. -/
def handleSessionUpdate (s : ViewerApp) (reads : Bool) : ViewerUpdate → ViewerApp
  | .frame _ _ | .latency _ | .file _ => s
  -- Shown as soon as the channel is up, whatever is known of the host.
  | .connected => { s with screen := .inSession }
  | .paired accepted =>
    let s := { s with paired := some accepted }
    if accepted then { s with screen := .inSession }
    else leaveSession { s with error := some "host rejected pairing (protocol version mismatch)" }
  | .passwordRequired _ =>
    { s with hostPassword := "", conn := .needPassword s.pwSubmitted, screen := .connecting }
  | .hostIdentity publicKey deviceId verified =>
    s.handleHostIdentity reads publicKey deviceId verified
  | .displays ds => { s with displays := ds }
  | .disconnected =>
    if s.screen = .inSession then
      leaveSession { s with info := some "session ended (host disconnected)" }
    else leaveSession { s with error := some "disconnected before the session was established" }

/-- No-op if a job is already in flight. -/
def spawn (s : ViewerApp) (label : String) (kind : JobKind) : ViewerApp :=
  if s.busy.isSome then s
  else { s with error := none, info := none, busy := some label, job := some kind }

/-- The actions that need an account. -/
def spawnSignedIn (s : ViewerApp) (label : String) (kind : JobKind) : ViewerApp :=
  if s.account.isSome && s.creds.isSome then s.spawn label kind else s

def refreshDevices (s : ViewerApp) : ViewerApp := s.spawnSignedIn "Loading devices…" .devices

/-- Of a job that is over. -/
def applyJob (s : ViewerApp) (io : PeersIo) : Job → ViewerApp
  | .signedIn (.ok devices) =>
    { s with devices, screen := .devices, info := some "signed in", password := "" }
  | .signedIn (.error e) => { s with account := none, creds := none, error := some e }
  | .registered (.ok ()) => { s with info := some "account created — you can sign in now" }
  | .devices (.ok devices) => { s with devices }
  | .thisDevice (.ok token) =>
    refreshDevices { s with
      viewerToken := some token
      info := some "this device is registered — you can connect" }
  | .deleted (.ok id) =>
    { s with devices := s.devices.filter (·.deviceId ≠ id), info := some "device removed" }
  | .paired (.ok (deviceId, publicKeyHex, name)) =>
    match s.knownPeers.trustOnFirstUse io deviceId publicKeyHex with
    | (.ok _, knownPeers) => { s with knownPeers, info := some s!"paired with {name}" }
    | (.error _, knownPeers) => { s with knownPeers }
  | .paired (.error _) => s
  | .registered (.error e) | .devices (.error e) | .thisDevice (.error e) | .deleted (.error e) =>
    { s with error := some e }

def pollJob (s : ViewerApp) (io : PeersIo) (j : Job) : ViewerApp :=
  applyJob { s with job := none, busy := none } io j

def actionSignIn (s : ViewerApp) : ViewerApp :=
  let user := String.ofList (trim s.username.toList)
  if user = "" || s.password = "" then { s with error := some "enter a username and password" }
  else
    spawn { s with
      account := some (String.ofList (trim s.serverUrl.toList))
      creds := some (user, s.password) } "Signing in…" .signIn

def actionCreateAccount (s : ViewerApp) : ViewerApp :=
  if trim s.username.toList = [] || decide ((utf8 s.password).length < 8) then
    { s with error := some "username required; password must be at least 8 characters" }
  else s.spawn "Creating account…" .register

def actionSignOut (s : ViewerApp) : ViewerApp :=
  { s with
    account := none
    creds := none
    devices := []
    viewerToken := none
    password := ""
    screen := .login }

def actionBeginConnect (s : ViewerApp) (host : DeviceInfo) (reads : Bool) : ViewerApp :=
  let tofu :=
    match s.knownPeers.get reads host.deviceId with
    | none => Tofu.firstUse
    | some k => if k = host.publicKey then .trusted else .changed
  { s with
    selectedHost := some host
    conn := .confirm tofu
    screen := .connecting
    error := none
    info := none }

def actionConfirmConnect (s : ViewerApp) (io : PeersIo) (signaling started : Except String Unit) :
    ViewerApp :=
  match s.selectedHost, s.account, s.viewerToken with
  | some host, some _, some _ =>
    match s.knownPeers.trustOnFirstUse io host.deviceId host.publicKey with
    | (.error e, knownPeers) => leaveSession { s with knownPeers, error := some e.text }
    | (.ok _, knownPeers) =>
      match signaling with
      | .ok () => startSession { s with knownPeers } started
      | .error e =>
        leaveSession { s with knownPeers, error := some ("could not open signaling: " ++ e) }
  | _, _, _ =>
    leaveSession { s with error := some "register this device to get a token before connecting" }

def call (s : ViewerApp) (calls : List SessionCall) : ViewerApp :=
  { s with session := s.session.map (· ++ calls) }

def actionSubmitHostPassword (s : ViewerApp) : ViewerApp :=
  if s.hostPassword = "" then s
  else
    call { s with hostPassword := "", pwSubmitted := true, conn := .establishing }
      [.submitPassword s.hostPassword]

def openPairing (s : ViewerApp) : ViewerApp :=
  { s with pairCode := "", pairGenerated := false, screen := .pair }

def startPairing (s : ViewerApp) : ViewerApp :=
  if trim s.pairCode.toList = [] then s else s.spawn "pairing" .pairing

/-- Whether the page that is shown offers a click. -/
def offers (env : ViewerAppEnv) (s : ViewerApp) : Click → Bool
  | .edit .serverUrl _ | .edit .username _ | .edit .password _ | .signIn | .createAccount =>
    s.screen = .login && s.busy.isNone
  | .edit .pairCode _ | .generateCode _ | .back => s.screen = .pair
  | .pair => s.screen = .pair && s.busy.isNone
  | .edit .hostPassword _ | .submitPassword =>
    s.screen = .connecting && (s.conn = .needPassword true || s.conn = .needPassword false)
  | .openPairing => s.screen = .login || s.screen = .devices
  | .signOut => s.screen = .devices
  | .refresh => s.screen = .devices && s.busy.isNone
  | .registerThisDevice => s.screen = .devices && s.viewerToken.isNone && s.busy.isNone
  | .connect host _ =>
    s.screen = .devices && host ∈ s.devices && host.isConnectable &&
      host.deviceId ≠ env.thisDeviceId && s.viewerToken.isSome && s.busy.isNone
  | .delete id => s.screen = .devices && s.devices.any (·.deviceId = id)
  | .confirm _ _ _ =>
    s.screen = .connecting && (s.conn = .confirm .trusted || s.conn = .confirm .firstUse)
  | .leave => s.screen = .connecting || (s.screen = .inSession && s.hudVisible)
  | .viewOnly => s.screen = .inSession && s.hudVisible
  | .selectDisplay id =>
    s.screen = .inSession && s.hudVisible && 1 < s.displays.length &&
      s.displays.any (·.id = id) && id ≠ s.activeDisplay
  | .dismissError | .dismissInfo => s.screen ≠ .pair && s.screen ≠ .inSession

def onClick (s : ViewerApp) : Click → ViewerApp
  | .edit .serverUrl text => { s with serverUrl := text }
  | .edit .username text => { s with username := text }
  | .edit .password text => { s with password := text }
  | .edit .pairCode text => { s with pairCode := text }
  | .edit .hostPassword text => { s with hostPassword := text }
  | .signIn => s.actionSignIn
  | .createAccount => s.actionCreateAccount
  | .openPairing => s.openPairing
  | .signOut => s.actionSignOut
  | .refresh => s.refreshDevices
  | .registerThisDevice => s.spawnSignedIn "Registering this device…" .thisDevice
  | .connect host reads => s.actionBeginConnect host reads
  | .delete id => s.spawnSignedIn "Removing device…" (.delete id)
  | .confirm io signaling started => s.actionConfirmConnect io signaling started
  | .leave => s.leaveSession
  | .submitPassword => s.actionSubmitHostPassword
  | .viewOnly => { s with viewOnly := !s.viewOnly }
  | .selectDisplay id =>
    call { s with activeDisplay := id } [.selectDisplay id, .requestKeyframe]
  | .generateCode (.ok code) => { s with pairCode := code, pairGenerated := true }
  | .generateCode (.error _) => s
  | .pair => s.startPairing
  | .back => { s with screen := if s.account.isSome then .devices else .login }
  | .dismissError => { s with error := none }
  | .dismissInfo => { s with info := none }

/-- Whether local input should be forwarded to the host right now. -/
def forwardingInput (s : ViewerApp) (eguiConsumed : Bool) : Bool :=
  s.screen = .inSession && s.session.isSome && !s.viewOnly && !eguiConsumed

/-- An event without a translation is not sent. -/
def forward (s : ViewerApp) (eguiConsumed : Bool) (event : Option InputEvent) : ViewerApp :=
  if s.forwardingInput eguiConsumed then s.call (event.toList.map .sendInput) else s

def normalizeCursor (width height : Nat) (x y : F64) : F64 × F64 :=
  let share (v : F64) (size : Nat) : F64 := (v.div (.fin (max size 1))).clamp 0 1
  (share x width, share y height)

def windowEvent (env : ViewerAppEnv) (s : ViewerApp) (eguiConsumed : Bool) :
    WindowEvent → ViewerApp
  | .droppedFile path => s.call [.sendFile path]
  | .cursorMoved width height x y =>
    let cursor := normalizeCursor width height x y
    forward { s with lastCursor := cursor } eguiConsumed
      (some (.mouseMove { x := cursor.1, y := cursor.2 }))
  | .mouseInput pressed button =>
    s.forward eguiConsumed ((mapMouseButton button).map fun button =>
      .mouseButton { button, pressed, x := s.lastCursor.1, y := s.lastCursor.2 })
  | .lineDelta x y =>
    s.forward eguiConsumed (some (.mouseScroll { dx := x.mul (.fin 10), dy := y.mul (.fin 10) }))
  | .pixelDelta x y => s.forward eguiConsumed (some (.mouseScroll { dx := x, dy := y }))
  | .modifiersChanged mods => { s with modifiers := mapModifiers mods }
  | .keyboardInput pressed code =>
    if s.screen = .inSession && pressed && code = some "F1" then
      { s with hudVisible := !s.hudVisible }
    else
      s.forward eguiConsumed ((code.bind env.winitKeycodeToHid).map fun hidUsage =>
        .key { hidUsage, pressed, modifiers := s.modifiers })

/-- `quick` is the scripted fallback: its signaling, and the start of its session. -/
def new (serverUrl : String) (knownPeers : KnownPeers) (identityError : Option String)
    (quick : Option (Except String (Except String Unit))) : ViewerApp :=
  let app : ViewerApp := {
    screen := .login, serverUrl, username := "", password := "", account := none, creds := none
    devices := [], viewerToken := none, knownPeers, pairCode := "", pairGenerated := false
    selectedHost := none, conn := .establishing, session := none, paired := none
    hostPassword := "", pwSubmitted := false, hostVerified := none, viewOnly := false
    hudVisible := true, displays := [], activeDisplay := 0, modifiers := 0, lastCursor := (0, 0)
    job := none, busy := none, error := identityError, info := none }
  match quick with
  | none => app
  | some (.error e) => { app with error := some ("quick-connect failed: " ++ e) }
  | some (.ok started) => startSession { app with screen := .connecting } started

end ViewerApp
end ReachMyDevice
