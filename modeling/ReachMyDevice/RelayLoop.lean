import ReachMyDevice.RendezvousClient

/-!
# The loop of the signaling client

One arm of the loop at a time. The socket may fail at any frame that an arm
writes; the arm is then left where it stands, and what it has taken out of the
channel or out of the buffer does not go back. The state of the client outlives
the socket.
-/
namespace ReachMyDevice
open Machines

variable {J : Type}

def RelayPayload.message : RelayPayload J → Option (SignalMsg J)
  | .hello => none
  | .signal msg => some msg

/-- The signaling messages among frames. -/
def relayed (frames : List (Outbound J)) : List (SignalMsg J) :=
  frames.filterMap fun frame => frame.payload.message

/-- What became of the messages that the loop took, and who took over. -/
inductive RelayRecord (J : Type)
  /-- The first write of a message, and whether the socket took it. -/
  | tried (msg : SignalMsg J) (written : Bool)
  | takeover
  deriving DecidableEq, Repr

/-- The first writes of an arm, of which the socket takes `survives`. -/
def tries (msgs : List (SignalMsg J)) (survives : Nat) : List (RelayRecord J) :=
  (msgs.take survives).map (.tried · true) ++ (msgs.drop survives).map (.tried · false)

structure RelayLoop (J : Type) where
  client : RendezvousClient J
  /-- What the session has sent and the loop has not taken. -/
  channel : List (SignalMsg J)
  /-- What the session is given. -/
  inbox : List (SignalMsg J)
  ended : Bool
  /-- History: what `send` accepted, the records of it, what each arm wrote, the frames that were
  read, and how often a fresh offer was requested. -/
  accepted : List (SignalMsg J)
  records : List (RelayRecord J)
  batches : List (List (Outbound J))
  read : List (String × RelayPayload J)
  requests : Nat
  deriving DecidableEq

/-- A label says how many frames the socket takes before it fails. -/
inductive RelayLabel (J : Type)
  | accept (msg : SignalMsg J)
  | takeSwitched
  | connect
  /-- The socket is closed, cannot be read, is silent past the deadline, or takes no ping. -/
  | drop
  | announce (survives : Nat)
  | take (survives : Nat)
  /-- The session has dropped its end. -/
  | hangUp
  | frame (sender : String) (payload : RelayPayload J) (survives : Nat) (listening : Bool)
  deriving DecidableEq, Repr

namespace RendezvousClient

/-- Another viewer takes over from the one that is known. -/
def switches (c : RendezvousClient J) (sender : String) : Bool :=
  !c.isViewer && c.peer.isSome && decide (c.peer ≠ some sender)

/-- What is written for the first time when the sender is met. -/
def drained (c : RendezvousClient J) (sender : String) : List (SignalMsg J) :=
  if c.peer = some sender then [] else c.pending

variable {c : RendezvousClient J} {sender : String}

theorem switches_known (known : c.peer = some sender) : c.switches sender = false := by
  simp [switches, known]

theorem drained_known (known : c.peer = some sender) : c.drained sender = [] := if_pos known

theorem drained_met (unknown : c.peer ≠ some sender) : c.drained sender = c.pending :=
  if_neg unknown

theorem switches_met (unknown : c.peer ≠ some sender) :
    c.switches sender = (!c.isViewer && c.peer.isSome) := by
  simp [switches, unknown]

end RendezvousClient

namespace RelayLoop

/-- `peer`: the host, as the viewer is told it. -/
def start (peer : Option String) : RelayLoop J where
  client := .new peer
  channel := []
  inbox := []
  ended := false
  accepted := []
  records := []
  batches := []
  read := []
  requests := 0

/-- An arm writes its frames; the first that is not taken ends the connection. -/
def put (s : RelayLoop J) (frames : List (Outbound J)) (survives : Nat) : RelayLoop J :=
  { s with
    batches := s.batches ++ [frames.take survives]
    client := { s.client with
      online := s.client.online && decide (frames.length ≤ survives) } }

/-- A message leaves the channel for the socket, or for the buffer while no peer is known. -/
def taken (s : RelayLoop J) (msg : SignalMsg J) (rest : List (SignalMsg J)) (survives : Nat) :
    RelayLoop J :=
  let (client, frames) := s.client.send msg
  { s with
    channel := rest
    client := client
    records := s.records ++ tries (relayed frames) survives }.put frames survives

/-- A text frame that parses. The message in it is passed on after what is written in return. -/
def heard (s : RelayLoop J) (sender : String) (payload : RelayPayload J) (survives : Nat)
    (listening : Bool) : RelayLoop J :=
  let (client, frames, msgs) := s.client.receive sender payload
  let switched := s.client.switches sender
  let through := decide (frames.length ≤ survives)
  { s with
    client := client
    inbox := if through && listening then s.inbox ++ msgs else s.inbox
    ended := through && !listening && !msgs.isEmpty
    records := s.records ++ (if switched then [RelayRecord.takeover] else []) ++
      tries (s.client.drained sender) survives
    read := s.read ++ [(sender, payload)]
    requests := if switched then s.requests + 1 else s.requests }.put frames survives

def live (s : RelayLoop J) : Bool := s.client.online && !s.ended

def step (s : RelayLoop J) : RelayLabel J → Option (RelayLoop J)
  | .accept msg =>
    if s.ended then none
    else some { s with channel := s.channel ++ [msg], accepted := s.accepted ++ [msg] }
  | .takeSwitched => some { s with client := { s.client with peerSwitched := false } }
  | .connect =>
    if s.client.online || s.ended then none else some { s with client := s.client.connect }
  | .drop =>
    if s.live then some { s with client := { s.client with online := false } } else none
  | .announce survives =>
    if s.ended then none else s.client.announce.map fun hello => s.put [hello] survives
  | .take survives =>
    if s.live then
      match s.channel with
      | [] => none
      | msg :: rest => some (s.taken msg rest survives)
    else none
  | .hangUp => if s.live && s.channel.isEmpty then some { s with ended := true } else none
  | .frame sender payload survives listening =>
    if s.live then some (s.heard sender payload survives listening) else none

def machine (peer : Option String) : Machine (RelayLoop J) (RelayLabel J) where
  init s := s = start peer
  step := step

/-! ## What a step can do -/

variable {s s' : RelayLoop J}

/-- A step that moves no message and writes none; the cache, the buffer and the peer stay. -/
structure Idle (s s' : RelayLoop J) : Prop where
  isViewer : s'.client.isViewer = s.client.isViewer
  peer : s'.client.peer = s.client.peer
  pending : s'.client.pending = s.client.pending
  lastOffer : s'.client.lastOffer = s.client.lastOffer
  sentCandidates : s'.client.sentCandidates = s.client.sentCandidates
  channel : s'.channel = s.channel
  accepted : s'.accepted = s.accepted
  records : s'.records = s.records
  read : s'.read = s.read
  requests : s'.requests = s.requests
  batches : ∃ batches, s'.batches = s.batches ++ batches ∧ ∀ batch ∈ batches, relayed batch = []

theorem idle_of_client {client : RendezvousClient J} {ended : Bool}
    (isViewer : client.isViewer = s.client.isViewer) (peer : client.peer = s.client.peer)
    (pending : client.pending = s.client.pending)
    (lastOffer : client.lastOffer = s.client.lastOffer)
    (sentCandidates : client.sentCandidates = s.client.sentCandidates) :
    Idle s { s with client, ended } where
  isViewer := isViewer
  peer := peer
  pending := pending
  lastOffer := lastOffer
  sentCandidates := sentCandidates
  channel := rfl
  accepted := rfl
  records := rfl
  read := rfl
  requests := rfl
  batches := ⟨[], (List.append_nil _).symm, by simp⟩

theorem announce_idle {hello : Outbound J} {survives : Nat}
    (announced : s.client.announce = some hello) : Idle s (s.put [hello] survives) := by
  have greeting : hello.payload = .hello := by
    unfold RendezvousClient.announce at announced
    split at announced
    · obtain ⟨target, -, rfl⟩ := Option.map_eq_some_iff.mp announced
      rfl
    · cases announced
  refine ⟨rfl, rfl, rfl, rfl, rfl, rfl, rfl, rfl, rfl, rfl, [[hello].take survives], rfl, ?_⟩
  intro batch member
  obtain rfl := List.mem_singleton.mp member
  rw [relayed, List.filterMap_eq_nil_iff]
  intro frame written
  obtain rfl := List.mem_singleton.mp (List.mem_of_mem_take written)
  rw [greeting]
  rfl

/-- The steps: idle ones, a message of the session, a message taken, a frame read. -/
theorem step_cases {a : RelayLabel J} (step : s.step a = some s') :
    Idle s s' ∨
    (∃ msg, s' = { s with channel := s.channel ++ [msg], accepted := s.accepted ++ [msg] }) ∨
    (∃ msg rest survives, s.channel = msg :: rest ∧ s' = s.taken msg rest survives) ∨
    (∃ sender payload survives listening, a = .frame sender payload survives listening ∧
      s' = s.heard sender payload survives listening) := by
  cases a with
  | accept msg =>
      simp only [RelayLoop.step, Option.ite_none_left_eq_some, Option.some.injEq] at step
      exact .inr (.inl ⟨msg, step.2.symm⟩)
  | takeSwitched =>
      obtain rfl := Option.some.inj step
      exact .inl (idle_of_client rfl rfl rfl rfl rfl)
  | connect =>
      simp only [RelayLoop.step, Option.ite_none_left_eq_some, Option.some.injEq] at step
      obtain ⟨-, rfl⟩ := step
      exact .inl (idle_of_client rfl rfl rfl rfl rfl)
  | drop =>
      simp only [RelayLoop.step, Option.ite_none_right_eq_some, Option.some.injEq] at step
      obtain ⟨-, rfl⟩ := step
      exact .inl (idle_of_client rfl rfl rfl rfl rfl)
  | announce survives =>
      simp only [RelayLoop.step, Option.ite_none_left_eq_some, Option.map_eq_some_iff] at step
      obtain ⟨-, hello, announced, rfl⟩ := step
      exact .inl (announce_idle announced)
  | take survives =>
      simp only [RelayLoop.step, Option.ite_none_right_eq_some] at step
      obtain ⟨-, step⟩ := step
      cases queued : s.channel with
      | nil => simp [queued] at step
      | cons msg rest =>
          simp only [queued, Option.some.injEq] at step
          exact .inr (.inr (.inl ⟨msg, rest, survives, rfl, step.symm⟩))
  | hangUp =>
      simp only [RelayLoop.step, Option.ite_none_right_eq_some, Option.some.injEq] at step
      obtain ⟨-, rfl⟩ := step
      exact .inl (idle_of_client rfl rfl rfl rfl rfl)
  | frame sender payload survives listening =>
      simp only [RelayLoop.step, Option.ite_none_right_eq_some, Option.some.injEq] at step
      exact .inr (.inr (.inr ⟨sender, payload, survives, listening, rfl, step.2.symm⟩))

end RelayLoop
end ReachMyDevice
