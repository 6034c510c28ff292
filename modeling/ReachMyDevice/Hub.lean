import Mathlib.Tactic.Common
import ReachMyDevice.Lib.Machine

/-!
# The signaling hub

Each socket registers under the device it authenticated as and replaces what is
there. Its tasks end in any order, and its unregistration may come after a newer
socket has taken the place.
-/
namespace ReachMyDevice
open Machines

/-- A signaling socket: its resolved credential and the channel of its own. -/
structure Connection where
  channel : Nat
  signalingId : String
  userId : Int
  deriving DecidableEq, Repr

/-- An entry of the hub. -/
structure Peer where
  userId : Int
  tx : Connection
  owner : tx.userId = userId

inductive RelayError
  | offline
  | crossAccount
  deriving DecidableEq, Repr

/-- The JSON text `{"to": .., "payload": ..}`. -/
structure RelayFrame (J : Type) where
  target : String
  payload : J

/-- The JSON text `{"from": .., "payload": ..}`. -/
structure Relayed (J : Type) where
  sender : String
  payload : J
  deriving DecidableEq

structure Delivery (J : Type) where
  receiver : Connection
  text : Relayed J
  deriving DecidableEq

/-- How far `handle_socket` is. The receiving half of the channel goes with the send task. -/
structure SocketStatus where
  registered : Bool := false
  receiving : Bool := true
  sending : Bool := true
  unregistered : Bool := false

structure Hub where
  peers : String → Option Peer
  status : Connection → SocketStatus

inductive HubLabel (J : Type)
  | register (c : Connection)
  /-- `none`: over the limit, or not a frame. -/
  | receive (c : Connection) (frame : Option (RelayFrame J))
  | receiveEnds (c : Connection)
  | sendEnds (c : Connection)
  | unregister (c : Connection)

def HubLabel.connection {J : Type} : HubLabel J → Connection
  | .register c | .receive c _ | .receiveEnds c | .sendEnds c | .unregister c => c

/-- The device whose place a label takes. -/
def HubLabel.registers {J : Type} : HubLabel J → Option String
  | .register c => some c.signalingId
  | _ => none

namespace Hub
variable {J : Type} (s : Hub)

def new : Hub := ⟨fun _ => none, fun _ => {}⟩

def setStatus (c : Connection) (status : SocketStatus) : Hub :=
  { s with status := Function.update s.status c status }

def register (deviceId : String) (userId : Int) (tx : Connection) (owner : tx.userId = userId) :
    Hub :=
  { s with peers := Function.update s.peers deviceId (some ⟨userId, tx, owner⟩) }

/-- Removes a connection's entry, unless a newer connection has replaced it. -/
def unregister (deviceId : String) (tx : Connection) : Hub :=
  match s.peers deviceId with
  | some existing =>
    if existing.tx = tx then { s with peers := Function.update s.peers deviceId none } else s
  | none => s

/-- The connection that takes a frame. -/
def relay (fromUserId : Int) (target : String) : Except RelayError Connection :=
  match s.peers target with
  | some peer =>
    if peer.userId ≠ fromUserId then .error .crossAccount
    else if (s.status peer.tx).sending then .ok peer.tx
    else .error .offline
  | none => .error .offline

def enabled : HubLabel J → Bool
  | .register c => !(s.status c).registered
  | .receive c _ | .receiveEnds c => (s.status c).registered && (s.status c).receiving
  | .sendEnds c => (s.status c).registered && (s.status c).sending
  | .unregister c => (s.status c).registered && !(s.status c).unregistered &&
      !((s.status c).receiving && (s.status c).sending)

/-- What is relayed from a connection: `from` is its own identity. -/
def received (c : Connection) : Option (RelayFrame J) → List (Delivery J)
  | some frame =>
    match s.relay c.userId frame.target with
    | .ok receiver => [⟨receiver, c.signalingId, frame.payload⟩]
    | .error _ => []
  | none => []

def apply : HubLabel J → Hub × List (Delivery J)
  | .register c =>
    ((s.register c.signalingId c.userId c rfl).setStatus c { s.status c with registered := true }, [])
  | .receive c frame => (s, s.received c frame)
  | .receiveEnds c => (s.setStatus c { s.status c with receiving := false }, [])
  | .sendEnds c => (s.setStatus c { s.status c with sending := false }, [])
  | .unregister c =>
    ((s.unregister c.signalingId c).setStatus c { s.status c with unregistered := true }, [])

/-- A label that is not enabled changes nothing. -/
def step (l : HubLabel J) : Hub × List (Delivery J) := if s.enabled l then s.apply l else (s, [])

def without (deviceId : String) : Hub :=
  { s with peers := Function.update s.peers deviceId none }

theorem unregister_peers (deviceId other : String) (tx : Connection) :
    (s.unregister deviceId tx).peers other =
      if other = deviceId ∧ (s.peers deviceId).map (·.tx) = some tx then none else s.peers other := by
  unfold unregister
  cases here : s.peers deviceId with
  | none => simp
  | some existing =>
      by_cases same : existing.tx = tx
      · by_cases named : other = deviceId
        · simp [same, named]
        · simp [same, named]
      · simp [same]

theorem unregister_status (deviceId : String) (tx : Connection) :
    (s.unregister deviceId tx).status = s.status := by
  unfold unregister
  split
  · split <;> rfl
  · rfl

end Hub
end ReachMyDevice
