import ReachMyDevice.SignalingPair

/-!
# Signaling over the rendezvous relay

The viewer addresses the host and announces itself on every fresh socket; the
host learns the viewer from its first frame, and replays its offer when a viewer
it knows announces itself again. What is relayed while the other side has no
socket is lost, as is what waits for a socket that drops.
-/
namespace ReachMyDevice
open Machines Driver

variable {J : Type}

inductive RelayPayload (J : Type)
  /-- Presence announce. -/
  | hello
  | signal (msg : SignalMsg J)
  deriving DecidableEq, Repr

structure Outbound (J : Type) where
  target : String
  payload : RelayPayload J
  deriving DecidableEq, Repr

structure RendezvousClient (J : Type) where
  isViewer : Bool
  peer : Option String
  pending : List (SignalMsg J)
  lastOffer : Option (SignalMsg J)
  sentCandidates : List (SignalMsg J)
  online : Bool
  receivedAny : Bool
  peerSwitched : Bool
  deriving DecidableEq, Repr

namespace RendezvousClient

/-- `peer`: the host, as the viewer is told it. -/
def new (peer : Option String) : RendezvousClient J where
  isViewer := peer.isSome
  peer := peer
  pending := []
  lastOffer := none
  sentCandidates := []
  online := false
  receivedAny := false
  peerSwitched := false

def connect (c : RendezvousClient J) : RendezvousClient J :=
  { c with online := true, receivedAny := false }

def announce (c : RendezvousClient J) : Option (Outbound J) :=
  if c.online = true ∧ c.isViewer = true ∧ c.receivedAny = false then
    c.peer.map fun target => { target, payload := .hello }
  else none

def record (c : RendezvousClient J) : SignalMsg J → RendezvousClient J
  | .offer json => { c with lastOffer := some (.offer json), sentCandidates := [] }
  | .candidate line => { c with sentCandidates := c.sentCandidates ++ [.candidate line] }
  | .answer _ => c

def send (c : RendezvousClient J) (msg : SignalMsg J) : RendezvousClient J × List (Outbound J) :=
  match c.peer with
  | some target => (c.record msg, [{ target, payload := .signal msg }])
  | none => ({ c.record msg with pending := c.pending ++ [msg] }, [])

def replay (c : RendezvousClient J) (target : String) : List (Outbound J) :=
  match c.lastOffer with
  | none => []
  | some offer => (offer :: c.sentCandidates).map fun msg => { target, payload := .signal msg }

/-- A peer that was not known takes over; what is cached describes the connection of the one
before it. -/
def meet (c : RendezvousClient J) (sender : String) : RendezvousClient J × List (Outbound J) :=
  let switched := !c.isViewer && c.peer.isSome
  let c' := if switched then
      { c with lastOffer := none, sentCandidates := [], peerSwitched := true }
    else c
  ({ c' with peer := some sender, pending := [] },
    c.pending.map fun msg => { target := sender, payload := .signal msg })

/-- Any frame tells the client who is there. -/
def heard (c : RendezvousClient J) (sender : String) : RendezvousClient J × List (Outbound J) :=
  if c.peer = some sender then ({ c with receivedAny := true }, [])
  else meet { c with receivedAny := true } sender

/-- A frame is read: what is written in return, and what the session is given. -/
def receive (c : RendezvousClient J) (sender : String) (payload : RelayPayload J) :
    RendezvousClient J × List (Outbound J) × List (SignalMsg J) :=
  match payload with
  | .signal msg => ((c.heard sender).1, (c.heard sender).2, [msg])
  | .hello =>
    ((c.heard sender).1, if c.peer = some sender then c.replay sender else (c.heard sender).2, [])

variable {c : RendezvousClient J} {sender : String}

theorem send_known {target : String} (known : c.peer = some target) (msg : SignalMsg J) :
    c.send msg = (c.record msg, [{ target, payload := .signal msg }]) := by
  unfold send
  rw [known]

theorem heard_known (known : c.peer = some sender) :
    c.heard sender = ({ c with receivedAny := true }, []) := if_pos known

theorem receive_signal (known : c.peer = some sender) (msg : SignalMsg J) :
    c.receive sender (.signal msg) = ({ c with receivedAny := true }, [], [msg]) := by
  rw [receive, heard_known known]

theorem receive_hello (known : c.peer = some sender) :
    c.receive sender .hello = ({ c with receivedAny := true }, c.replay sender, []) := by
  rw [receive, heard_known known, if_pos known]

end RendezvousClient

/-- A device: its driver, its signaling client, and the channels between them. -/
structure Endpoint (J : Type) where
  id : String
  link : Link J
  client : RendezvousClient J
  outbox : List (SignalMsg J)
  inbox : List (SignalMsg J)
  /-- Frames that were written to the relay. -/
  toRelay : List (Outbound J)
  /-- Frames that the relay passes on to this device. -/
  fromRelay : List (RelayPayload J)

inductive EndpointLabel (J : Type)
  | driver (l : DriverLabel J)
  /-- The application gives a command that is no signaling message. -/
  | command (cmd : DriverCmd J)
  /-- The session takes a message from its client, or an event from its driver. -/
  | feed
  | takeEvent
  | takeSwitched
  | send
  | announce
  | connect
  | drop
  /-- The relay takes a frame; it may drop frames over its rate limit. -/
  | relay (passes : Bool)
  | receive

namespace Endpoint

def start (rtc : Rtc J) (id : String) (peer : Option String) (gathered : List String) :
    Endpoint J where
  id := id
  link := .start rtc peer.isNone gathered
  client := .new peer
  outbox := []
  inbox := []
  toRelay := []
  fromRelay := []

/-- A frame reaches the device it is addressed to while that has a socket. -/
def deliver (frame : Outbound J) (passes : Bool) (o : Endpoint J) : Endpoint J :=
  if passes = true ∧ frame.target = o.id ∧ o.client.online = true then
    { o with fromRelay := o.fromRelay ++ [frame.payload] }
  else o

/-- A step of a device, `o` being the other one. -/
def step [DecidableEq J] (rtc : Rtc J) (e o : Endpoint J) :
    EndpointLabel J → Option (Endpoint J × Endpoint J)
  | .driver l => (e.link.advance rtc l).map fun k => ({ e with link := k.1 }, o)
  | .command cmd =>
    if commandSignals [cmd] = [] then some ({ e with link := e.link.post [cmd] }, o) else none
  | .feed =>
    match e.inbox with
    | [] => none
    | msg :: rest => some ({ e with inbox := rest, link := e.link.post [.signal msg] }, o)
  | .takeEvent =>
    match e.link.events with
    | [] => none
    | ev :: rest => some
        ({ e with link := { e.link with events := rest }, outbox := e.outbox ++ eventSignals [ev] }, o)
  | .takeSwitched =>
    if e.client.peerSwitched = true ∧ e.link.driver.isHost = true then some
      ({ e with
        link := e.link.post [.iceRestart], client := { e.client with peerSwitched := false } }, o)
    else none
  | .send =>
    if e.client.online = true then
      match e.outbox with
      | [] => none
      | msg :: rest =>
        let r := e.client.send msg
        some ({ e with outbox := rest, client := r.1, toRelay := e.toRelay ++ r.2 }, o)
    else none
  | .announce => e.client.announce.map fun frame => ({ e with toRelay := e.toRelay ++ [frame] }, o)
  | .connect =>
    if e.client.online = false then some ({ e with client := e.client.connect }, o) else none
  | .drop =>
    if e.client.online = true then
      some ({ e with client := { e.client with online := false }, fromRelay := [] }, o)
    else none
  | .relay passes =>
    match e.toRelay with
    | [] => none
    | frame :: rest => some ({ e with toRelay := rest }, o.deliver frame passes)
  | .receive =>
    if e.client.online = true then
      match e.fromRelay with
      | [] => none
      | payload :: rest =>
        let r := e.client.receive o.id payload
        some ({ e with
          client := r.1, toRelay := e.toRelay ++ r.2.1, inbox := e.inbox ++ r.2.2,
          fromRelay := rest }, o)
    else none

end Endpoint

structure RendezvousPair (J : Type) where
  host : Endpoint J
  viewer : Endpoint J

inductive RendezvousLabel (J : Type)
  | host (l : EndpointLabel J)
  | viewer (l : EndpointLabel J)

namespace RendezvousPair

def start (rtc : Rtc J) (hostId viewerId : String) (hostGathered viewerGathered : List String) :
    RendezvousPair J where
  host := .start rtc hostId none hostGathered
  viewer := .start rtc viewerId (some hostId) viewerGathered

variable [DecidableEq J]

def step (rtc : Rtc J) (s : RendezvousPair J) : RendezvousLabel J → Option (RendezvousPair J)
  | .host l => (s.host.step rtc s.viewer l).map fun r => { host := r.1, viewer := r.2 }
  | .viewer l => (s.viewer.step rtc s.host l).map fun r => { host := r.2, viewer := r.1 }

def machine (rtc : Rtc J) : Machine (RendezvousPair J) (RendezvousLabel J) where
  init s := ∃ hostId viewerId hostGathered viewerGathered,
    s = start rtc hostId viewerId hostGathered viewerGathered
  step := step rtc

/-- The runs that go on from a given state. -/
def resumed (rtc : Rtc J) (s₀ : RendezvousPair J) :
    Machine (RendezvousPair J) (RendezvousLabel J) where
  init s := s = s₀
  step := step rtc

end RendezvousPair
end ReachMyDevice
