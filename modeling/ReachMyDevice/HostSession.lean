import ReachMyDevice.HostControl

/-!
# The event loop of a host session

One turn takes a signaling message, rebuilds the injector for a new geometry, or
handles one transport event.
-/
namespace ReachMyDevice

/-- Which injector the platform gives, with the geometry it is built for. -/
inductive NewInjector
  | uinput (fromEnv : Option MonitorRect)
  | x11 (width height : F64)
  | mac (width height : F64)
  | unavailable
  deriving DecidableEq, Repr

def NewInjector.build (monitorRect : Option MonitorRect) : NewInjector → Option Injector
  | .uinput fromEnv => some (.uinput (.new (fromEnv.or monitorRect)))
  | .x11 width height => some (.x11 (.new width height))
  | .mac width height => some (.mac (.new width height))
  | .unavailable => none

/-- What a turn posts to the system. -/
def osEvents (effects : List HostEffect) : List OsEvent :=
  effects.flatMap fun
    | .os evs => evs
    | _ => []

/-- The fingerprint a signaling message brings, if it is an answer. -/
def answerFingerprint {J : Type} (sdp : J → Option String) : SignalMsg J → Option String
  | .answer json => fingerprintFromSessionJson sdp json
  | _ => none

def offerFingerprint {J : Type} (sdp : J → Option String) : SignalMsg J → Option String
  | .offer json => fingerprintFromSessionJson sdp json
  | _ => none

namespace HostSession
variable {J D H : Type}

/-- A signaling message on its way to the driver. -/
def onSignal (sdp : J → Option String) (s : HostSession D H) (msg : SignalMsg J) :
    HostSession D H :=
  { s with remoteFingerprint := (answerFingerprint sdp msg).or s.remoteFingerprint }

def onLocalSignal (sdp : J → Option String) (s : HostSession D H) (msg : SignalMsg J) :
    HostSession D H :=
  { s with localFingerprint := (offerFingerprint sdp msg).or s.localFingerprint }

def onGeometryChanged (s : HostSession D H) (rect : Option MonitorRect) (built : NewInjector) :
    HostSession D H :=
  { s with injector := built.build rect }

def onConnected (s : HostSession D H) : HostSession D H :=
  { s with connected := true, authorized := false, wasAuthorized := false, viewOnly := false }

def onDisconnected (s : HostSession D H) (r : Readings) : Result D H :=
  let s := { s with connected := false, authorized := false, wasAuthorized := false,
                    viewOnly := false }
  let released := s.releaseAll r
  ({ released.1 with pwThrottle := .new },
    released.2 ++ [.video .pause, .status .ended])

/-- The control message is handled, then a fresh authorization is reported. -/
def onData (env : HostEnv D H) (s : HostSession D H) (r : Readings) (bytes : Wire) : Result D H :=
  let (s, effects) := s.handleControl env r bytes
  if s.authorized && !s.wasAuthorized then
    ({ s with wasAuthorized := true }, effects ++ [.status .active])
  else (s, effects)

def onEvent (env : HostEnv D H) (sdp : J → Option String) (s : HostSession D H) (r : Readings) :
    TransportEvent J → Result D H
  | .localSignal msg => (s.onLocalSignal sdp msg, [])
  | .connected => (s.onConnected, [])
  | .disconnected => s.onDisconnected r
  | .data bytes => s.onData env r bytes
  | .video _ _ => (s, [])
  | .keyframeRequested => (s, [.video .requestKeyframe])

inductive Input (J : Type)
  | signal (msg : SignalMsg J)
  | geometryChanged (rect : Option MonitorRect) (built : NewInjector)
  | event (ev : TransportEvent J) (r : Readings)

/-- One turn of the loop. -/
def turn (env : HostEnv D H) (sdp : J → Option String) (s : HostSession D H) :
    Input J → Result D H
  | .signal msg => (s.onSignal sdp msg, [])
  | .geometryChanged rect built => (s.onGeometryChanged rect built, [])
  | .event ev r => s.onEvent env sdp r ev

theorem onDisconnected_cleared (s : HostSession D H) (r : Readings) :
    (s.onDisconnected r).1.authorized = false ∧ (s.onDisconnected r).1.wasAuthorized = false :=
  ⟨(releaseAll_sameViewer _ r).authorized, (releaseAll_sameViewer _ r).wasAuthorized⟩

/-- A fresh authorization is reported once. -/
theorem onData_reports {env : HostEnv D H} {s : HostSession D H} {r : Readings} {bytes : Wire}
    (authorized : (s.handleControl env r bytes).1.authorized = true)
    (edge : (s.handleControl env r bytes).1.wasAuthorized = false) :
    s.onData env r bytes =
      ({ (s.handleControl env r bytes).1 with wasAuthorized := true },
        (s.handleControl env r bytes).2 ++ [.status .active]) := by
  simp [onData, authorized, edge]

theorem onData_silent {env : HostEnv D H} {s : HostSession D H} {r : Readings} {bytes : Wire}
    (noEdge : (s.handleControl env r bytes).1.authorized = true →
      (s.handleControl env r bytes).1.wasAuthorized = true) :
    s.onData env r bytes = s.handleControl env r bytes := by
  simp only [onData]
  split
  · rename_i edge
    simp only [Bool.and_eq_true, Bool.not_eq_true'] at edge
    rw [noEdge edge.1] at edge
    exact Bool.noConfusion edge.2
  · rfl

theorem onData_authorized (env : HostEnv D H) (s : HostSession D H) (r : Readings) (bytes : Wire) :
    (s.onData env r bytes).1.authorized = (s.handleControl env r bytes).1.authorized := by
  simp only [onData]
  split <;> rfl

theorem handleControl_remoteFingerprint (env : HostEnv D H) (s : HostSession D H) (r : Readings)
    (bytes : Wire) : (s.handleControl env r bytes).1.remoteFingerprint = s.remoteFingerprint := by
  cases carried : hello? bytes with
  | none =>
      rcases handleControl_other env s r carried with dropped | ⟨-, same⟩
      · rw [dropped]
      · exact same.remoteFingerprint
  | some m =>
      rw [handleControl_hello env s r carried]
      exact handleHello_remoteFingerprint env s r m.1 m.2

/-- Only the receipt of an answer changes the fingerprint that proofs are bound to. -/
theorem onEvent_remoteFingerprint (env : HostEnv D H) (sdp : J → Option String)
    (s : HostSession D H) (r : Readings) (ev : TransportEvent J) :
    (s.onEvent env sdp r ev).1.remoteFingerprint = s.remoteFingerprint := by
  cases ev with
  | disconnected => exact (releaseAll_sameViewer _ r).remoteFingerprint
  | data bytes =>
      rw [onEvent, ← handleControl_remoteFingerprint env s r bytes]
      simp only [onData]
      split <;> rfl
  | localSignal msg => rfl
  | connected => rfl
  | video annexb tsHint => rfl
  | keyframeRequested => rfl

/-- The verdict on the `Hello` an event carries. -/
def eventVerdict (env : HostEnv D H) (s : HostSession D H) (r : Readings) :
    TransportEvent J → Option Bool
  | .data bytes => s.verdict env r bytes
  | _ => none

/-- An event sets the flag to its verdict, and without one it never sets it. -/
theorem onEvent_authorized {env : HostEnv D H} {sdp : J → Option String} {s : HostSession D H}
    {r : Readings} (ev : TransportEvent J) (set : (s.onEvent env sdp r ev).1.authorized = true) :
    (s.eventVerdict env r ev).getD s.authorized = true := by
  cases ev with
  | connected => cases set
  | disconnected =>
      rw [onEvent, (onDisconnected_cleared s r).1] at set
      cases set
  | localSignal msg | video annexb tsHint | keyframeRequested => exact set
  | data bytes => rwa [onEvent, onData_authorized, handleControl_authorized] at set

/-- Fits the sample host: an allowed viewer connects and is accepted. The JSON of a
description is its SDP text. -/
def authorizes : List (Input String) :=
  [.signal (.answer "a=fingerprint:sha-256 AB"), .event .connected .sample,
   .event (.data (sampleHello "SHA-256 AB" "taco")) .sample]

def sends (payload : Payload) : Input String :=
  .event (.data (encode (envelope payload))) .sample

def keyDown : Payload := .input (some (.key { hidUsage := 4, pressed := true, modifiers := 0 }))

end HostSession
end ReachMyDevice
