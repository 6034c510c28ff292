import Mathlib.Tactic.Common
import ReachMyDevice.Lib.Machine
import ReachMyDevice.Protocol

/-!
# Pairing rooms

Two sockets that name one code meet in a room, and the relay passes frames
between them. A room goes with its last member and may come back under its code.
-/
namespace ReachMyDevice
open Machines

/-- A pairing socket: its code and the channel of its own. -/
structure PairConnection where
  channel : Nat
  code : String
  deriving DecidableEq, Repr

structure RoomMember where
  id : Nat
  tx : PairConnection
  deriving DecidableEq, Repr

/-- What a pairing socket is sent: `{"peer":"joined"}`, `{"peer":"left"}`, the error that the room
is full, or another member's payload. -/
inductive RoomText (J : Type)
  | joined
  | left
  | full
  | payload (payload : J)
  deriving DecidableEq

structure RoomSend (J : Type) where
  receiver : PairConnection
  text : RoomText J
  deriving DecidableEq

/-- How far `handle_pair_socket` is. -/
structure PairStatus where
  asked : Bool := false
  memberId : Option Nat := none
  receiving : Bool := true
  sending : Bool := true
  gone : Bool := false

structure PairingRooms where
  rooms : String → Option (List RoomMember)
  nextMember : Nat
  status : PairConnection → PairStatus

inductive RoomLabel (J : Type)
  | join (c : PairConnection)
  /-- `none`: not a frame. -/
  | receive (c : PairConnection) (payload : Option J)
  | receiveEnds (c : PairConnection)
  | sendEnds (c : PairConnection)
  | leave (c : PairConnection)

namespace PairingRooms
variable {J : Type} (s : PairingRooms)

/-- `ws_pair_handler` upgrades a request with such a code, and answers any other with an error. -/
def upgrades (code : String) : Bool := !(utf8 code).isEmpty && decide ((utf8 code).length ≤ 128)

def new : PairingRooms := ⟨fun _ => none, 0, fun _ => {}⟩

def members (code : String) : List RoomMember := (s.rooms code).getD []

def setStatus (c : PairConnection) (status : PairStatus) : PairingRooms :=
  { s with status := Function.update s.status c status }

def setRoom (code : String) (room : Option (List RoomMember)) : PairingRooms :=
  { s with rooms := Function.update s.rooms code room }

/-- Both sides are told that the room has a peer. `none`: the room is full. -/
def joinRoom (code : String) (tx : PairConnection) :
    Option (Nat × PairingRooms × List (RoomSend J)) :=
  let members := s.members code
  if 2 ≤ members.length then none
  else
    let others := members.map fun m => ⟨m.tx, .joined⟩
    let own := if members.isEmpty then [] else [⟨tx, .joined⟩]
    some (s.nextMember,
      { s.setRoom code (some (members ++ [⟨s.nextMember, tx⟩])) with nextMember := s.nextMember + 1 },
      others ++ own)

def relayRoom (code : String) (fromId : Nat) (text : J) : List (RoomSend J) :=
  ((s.members code).filter (·.id ≠ fromId)).map fun m => ⟨m.tx, .payload text⟩

/-- The member that stays is told, and an empty room goes. -/
def leaveRoom (code : String) (id : Nat) : PairingRooms × List (RoomSend J) :=
  match s.rooms code with
  | some members =>
    let stay := members.filter (·.id ≠ id)
    (s.setRoom code (if stay.isEmpty then none else some stay), stay.map fun m => ⟨m.tx, .left⟩)
  | none => (s, [])

/-- `none`: the label is not enabled. A task that has been told to stop may still pass a frame on,
so receiving ends at any time. -/
def step : RoomLabel J → Option (PairingRooms × List (RoomSend J))
  | .join c =>
    if (s.status c).asked then none
    else match s.joinRoom c.code c with
      | some (id, s', sent) =>
        some (s'.setStatus c { s.status c with asked := true, memberId := some id }, sent)
      | none => some (s.setStatus c { s.status c with asked := true }, [⟨c, .full⟩])
  | .receive c payload =>
    match (s.status c).memberId with
    | some id =>
      if (s.status c).receiving then
        some (s, match payload with
          | some payload => s.relayRoom c.code id payload
          | none => [])
      else none
    | none => none
  | .receiveEnds c =>
    if (s.status c).memberId.isSome ∧ (s.status c).receiving then
      some (s.setStatus c { s.status c with receiving := false }, [])
    else none
  | .sendEnds c =>
    if (s.status c).memberId.isSome ∧ (s.status c).sending then
      some (s.setStatus c { s.status c with sending := false }, [])
    else none
  | .leave c =>
    match (s.status c).memberId with
    | some id =>
      if (s.status c).gone ∨ (s.status c).receiving ∧ (s.status c).sending then none
      else
        let (s', sent) := s.leaveRoom c.code id
        some (s'.setStatus c { s.status c with gone := true }, sent)
    | none => none

end PairingRooms
end ReachMyDevice
