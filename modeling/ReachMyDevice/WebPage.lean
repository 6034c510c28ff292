import ReachMyDevice.RelaySocket
import ReachMyDevice.Lib.Slots

/-!
# The page of the web viewer

It keeps a session with the host, and makes a new one when the connection has
failed: after a second, and never two at a time. A session that was replaced
still stands behind the callbacks of its connection and of its socket.
-/
namespace ReachMyDevice
open Machines

/-- `RTCPeerConnection.connectionState`. -/
inductive PcState
  | new
  | connecting
  | connected
  | disconnected
  | failed
  | closed
  deriving DecidableEq, Repr

/-- What the page sends to the host over the relay. -/
inductive PagePayload
  | hello
  | answer (sdp : String)
  | candidate (line : String)
  deriving DecidableEq, Repr

/-- The promise that the handling of an offer waits for. -/
inductive AnswerStage
  | setRemote
  | createAnswer
  | setLocal (sdp : String)
  deriving DecidableEq, Repr

/-- A `control` channel, with the passwords of the Hellos that were sent on it. -/
structure ControlChannel where
  isOpen : Bool := false
  hellos : List (Option String) := []
  /-- How often the input listeners were attached to it. -/
  attached : Nat := 0
  deriving DecidableEq, Repr

/-- `described`: the local description is set. History: the texts passed to the socket, and whether
the connection was found unhealthy. -/
structure PageSession where
  pc : PcState := .new
  /-- The callbacks of the connection are set. -/
  wired : Bool := true
  described : Bool := false
  relay : RelaySocket × Passed
  answering : List AnswerStage := []
  helloSent : Bool := false
  channels : List ControlChannel := []
  unhealthy : Bool := false

/-- What happens to a session and to nothing else. -/
inductive SessionEvent
  | offer
  /-- The promise of an offer's handling is settled: the session description, or a rejection. -/
  | settled (k : Nat) (sdp : Option String)
  | iceCandidate (line : String)
  | socketOpen
  | socketClosing
  | socketClosed
  | dataChannel
  | channelOpen (k : Nat)
  deriving DecidableEq, Repr

namespace PageSession
variable (text : PagePayload → String) (s : PageSession)

def sendWhenOpen (payload : PagePayload) : PageSession :=
  { s with
    relay := (s.relay.1.sendWhenOpen (text payload),
      Passed.note s.relay.1 (.sendWhenOpen (text payload)) s.relay.1 s.relay.2) }

def socket (label : SocketLabel) : Option PageSession :=
  (passing.step s.relay label).map fun relay => { s with relay }

/-- Closing the connection settles no promise of it as fulfilled, and closes its channels. -/
def teardown : PageSession :=
  { s with
    pc := .closed
    wired := false
    relay := (s.relay.1.close, Passed.note s.relay.1 .close s.relay.1 s.relay.2) }

/-- An offer is ignored once the connection stands. -/
def offer : Option PageSession :=
  if s.relay.1.readyState ≠ .opened then none
  else if s.pc = .connected then some s
  else some { s with answering := s.answering ++ [.setRemote] }

def settled (k : Nat) (sdp : Option String) : Option PageSession :=
  s.answering[k]?.bind fun stage =>
    match sdp with
    | none => some { s with answering := s.answering.eraseIdx k }
    | some sdp =>
      if s.pc = .closed then none
      else match stage with
        | .setRemote => some { s with answering := s.answering.set k .createAnswer }
        | .createAnswer => some { s with answering := s.answering.set k (.setLocal sdp) }
        | .setLocal answer =>
          let handled := { s with described := true, answering := s.answering.eraseIdx k }
          some (handled.sendWhenOpen text (.answer answer))

/-- The browser gathers candidates once the local description is set. -/
def iceCandidate (line : String) : Option PageSession :=
  if s.pc ≠ .closed ∧ s.wired ∧ s.described then some (s.sendWhenOpen text (.candidate line))
  else none

/-- Each channel that arrives re-arms the Hello. -/
def dataChannel : Option PageSession :=
  if s.pc ≠ .closed ∧ s.wired then
    some { s with helloSent := false, channels := s.channels ++ [{}] }
  else none

def channelOpen (password : Option String) (k : Nat) : Option PageSession :=
  s.channels[k]?.bind fun channel =>
    if s.pc = .closed ∨ channel.isOpen then none
    else if s.helloSent then
      some { s with channels := s.channels.set k { channel with isOpen := true } }
    else
      some { s with
        helloSent := true
        channels := s.channels.set k
          { isOpen := true
            hellos := channel.hellos ++ [password]
            attached := channel.attached + 1 } }

/-- A Hello that leaves only if the channel is open. -/
def sendHello (k : Nat) (password : String) : PageSession :=
  match s.channels[k]? with
  | some channel =>
    if s.pc ≠ .closed ∧ channel.isOpen then
      { s with
        channels := s.channels.set k
          { channel with hellos := channel.hellos ++ [some password] } }
    else s
  | none => s

def on (password : Option String) : SessionEvent → Option PageSession
  | .offer => s.offer
  | .settled k sdp => s.settled text k sdp
  | .iceCandidate line => s.iceCandidate text line
  | .socketOpen => s.socket .openEvent
  | .socketClosing => s.socket .closing
  | .socketClosed => s.socket .closeEvent
  | .dataChannel => s.dataChannel
  | .channelOpen k => s.channelOpen password k

/-- A session whose transports the page has closed. -/
structure Closed : Prop where
  pc : s.pc = .closed
  wired : s.wired = false
  onopen : s.relay.1.onopen = none
  readyState : s.relay.1.readyState = .closing ∨ s.relay.1.readyState = .closed

/-- A session that tells the page when its connection fails. -/
structure Live : Prop where
  pc : s.pc ≠ .closed
  wired : s.wired = true

/-- What a session has sent. -/
def output : List String × List (List (Option String)) :=
  (s.relay.1.sent, s.channels.map (·.hellos))

end PageSession

/-- What an attempt to connect waits for. -/
inductive AttemptStage
  | iceServers
  | relay
  deriving DecidableEq, Repr

/-- `timers`: the reconnects that wait for their second. `spawned`: the calls of `connect` that have
not begun. -/
structure WebPage where
  connecting : Bool
  hidden : Bool
  password : Option String
  /-- The channel that the password is asked for, by its session and its place. -/
  pendingPw : Option (Nat × Nat)
  current : Option Nat
  sessions : List PageSession
  attempts : List AttemptStage
  timers : Nat
  spawned : Nat

inductive PageLabel
  | visibilityChange (hidden : Bool)
  | timer
  | start
  /-- The ICE servers are there; whether the browser makes a connection from them. -/
  | iceServers (k : Nat) (created : Bool)
  | relayConnected (k : Nat) (connected : Bool)
  | pcState (i : Nat) (state : PcState)
  | event (i : Nat) (e : SessionEvent)
  | helloAck (i k : Nat) (passwordRequired : Bool)
  | submit (pw : String)
  deriving DecidableEq, Repr

namespace WebPage
variable (text : PagePayload → String) (s : WebPage)

def setSession (i : Nat) (session : PageSession) : WebPage :=
  { s with sessions := s.sessions.set i session }

def scheduleReconnect : WebPage :=
  if s.connecting then s else { s with connecting := true, timers := s.timers + 1 }

def session : Option PageSession := s.current.bind (s.sessions[·]?)

def isHealthy (session : PageSession) : Bool :=
  decide (session.pc = .connected ∨ session.pc = .connecting ∨ session.pc = .new)

def noteUnhealthy (session : PageSession) : PageSession := { session with unhealthy := true }

/-- What `f` makes of the session. -/
def modifyCurrent (f : PageSession → PageSession) : WebPage :=
  { s with
    sessions := match s.current with
      | some i => s.sessions.modify i f
      | none => s.sessions }

/-- Only a page that comes back looks after its session. -/
def visibilityChange (hidden : Bool) : WebPage :=
  let page := { s with hidden }
  if hidden then page
  else if s.session.any isHealthy then page
  else (page.modifyCurrent noteUnhealthy).scheduleReconnect

/-- The beginning of `connect`. -/
def connect : WebPage :=
  if s.connecting then s
  else
    { s.modifyCurrent PageSession.teardown with
      connecting := true
      current := none
      attempts := s.attempts ++ [.iceServers] }

def attemptFailed (k : Nat) : WebPage :=
  { s with connecting := false, attempts := s.attempts.eraseIdx k }.scheduleReconnect

/-- The rest of `connect`, once the relay's socket is there. -/
def connected (k : Nat) : WebPage :=
  { s with
    connecting := false
    attempts := s.attempts.eraseIdx k
    current := some s.sessions.length
    sessions := s.sessions ++ [{ relay := ({}, {}) : PageSession }.sendWhenOpen text .hello] }

/-- Only a failed connection is replaced, and only while the page is seen. -/
def pcState (i : Nat) (state : PcState) : Option WebPage :=
  s.sessions[i]?.bind fun session =>
    if session.pc = .closed ∨ state = .closed then none
    else if session.wired ∧ state = .failed ∧ ¬ s.hidden then
      some (s.setSession i { session with pc := state, unhealthy := true }).scheduleReconnect
    else some (s.setSession i { session with pc := state })

def helloAck (i k : Nat) (passwordRequired : Bool) : Option WebPage :=
  s.sessions[i]?.bind fun session =>
    if session.pc ≠ .closed ∧ session.channels[k]?.any (·.isOpen) then
      some (if passwordRequired then { s with pendingPw := some (i, k) } else s)
    else none

def submit (pw : String) : WebPage :=
  if pw = "" then s
  else match s.pendingPw with
    | none => s
    | some (i, k) =>
      { s with
        pendingPw := none
        password := some pw
        sessions := s.sessions.modify i (·.sendHello k pw) }

def step : PageLabel → Option WebPage
  | .visibilityChange hidden => some (s.visibilityChange hidden)
  | .timer =>
    if s.timers = 0 then none
    else some { s with connecting := false, timers := s.timers - 1, spawned := s.spawned + 1 }
  | .start =>
    if s.spawned = 0 then none else some { s with spawned := s.spawned - 1 }.connect
  | .iceServers k created =>
    if s.attempts[k]? ≠ some .iceServers then none
    else some (if created then { s with attempts := s.attempts.set k .relay }
      else s.attemptFailed k)
  | .relayConnected k ok =>
    if s.attempts[k]? ≠ some .relay then none
    else some (if ok then s.connected text k else s.attemptFailed k)
  | .pcState i state => s.pcState i state
  | .event i e => s.sessions[i]?.bind fun session =>
      (session.on text s.password e).map (s.setSession i)
  | .helloAck i k passwordRequired => s.helloAck i k passwordRequired
  | .submit pw => some (s.submit pw)

/-- The page as `run` leaves it to `connect`, with the password from before, if there is one. -/
def start (hidden : Bool) (password : Option String) : WebPage :=
  ⟨false, hidden, password, none, none, [], [], 0, 1⟩

def machine : Machine WebPage PageLabel where
  init s := ∃ hidden password, s = start hidden password
  step s l := s.step text l

end WebPage

namespace PageSession
variable {text : PagePayload → String} {s t : PageSession} {password : Option String}

/-- What an event leaves as it is. -/
structure SameLife (s t : PageSession) : Prop where
  pc : t.pc = s.pc
  wired : t.wired = s.wired
  unhealthy : t.unhealthy = s.unhealthy

theorem SameLife.live (same : SameLife s t) (h : s.Live) : t.Live := by
  constructor
  · rw [same.pc]
    exact h.pc
  · rw [same.wired]
    exact h.wired

theorem socket_life {label : SocketLabel} (step : s.socket label = some t) : SameLife s t := by
  obtain ⟨relay, -, rfl⟩ := Option.map_eq_some_iff.mp step
  exact ⟨rfl, rfl, rfl⟩

theorem settled_life {k : Nat} {sdp : Option String} (step : s.settled text k sdp = some t) :
    SameLife s t := by
  obtain ⟨stage, -, step⟩ := Option.bind_eq_some_iff.mp step
  cases sdp with
  | none =>
      obtain rfl := Option.some.inj step
      exact ⟨rfl, rfl, rfl⟩
  | some sdp =>
      obtain ⟨-, step⟩ := Option.ite_none_left_eq_some.mp step
      cases stage with
      | setRemote | createAnswer | setLocal =>
          obtain rfl := Option.some.inj step
          exact ⟨rfl, rfl, rfl⟩

theorem channelOpen_life {k : Nat} (step : s.channelOpen password k = some t) :
    SameLife s t := by
  obtain ⟨channel, -, step⟩ := Option.bind_eq_some_iff.mp step
  obtain ⟨-, step⟩ := Option.ite_none_left_eq_some.mp step
  split at step
  · obtain rfl := Option.some.inj step
    exact ⟨rfl, rfl, rfl⟩
  · obtain rfl := Option.some.inj step
    exact ⟨rfl, rfl, rfl⟩

theorem on_life {e : SessionEvent} (step : s.on text password e = some t) : SameLife s t := by
  cases e with
  | offer =>
      obtain ⟨-, step⟩ := Option.ite_none_left_eq_some.mp step
      split at step
      · obtain rfl := Option.some.inj step
        exact ⟨rfl, rfl, rfl⟩
      · obtain rfl := Option.some.inj step
        exact ⟨rfl, rfl, rfl⟩
  | settled k sdp => exact settled_life step
  | iceCandidate line =>
      obtain ⟨-, step⟩ := Option.ite_none_right_eq_some.mp step
      obtain rfl := Option.some.inj step
      exact ⟨rfl, rfl, rfl⟩
  | socketOpen | socketClosing | socketClosed => exact socket_life step
  | dataChannel =>
      obtain ⟨-, step⟩ := Option.ite_none_right_eq_some.mp step
      obtain rfl := Option.some.inj step
      exact ⟨rfl, rfl, rfl⟩
  | channelOpen k => exact channelOpen_life step

theorem sendHello_life (k : Nat) (pw : String) : SameLife s (s.sendHello k pw) := by
  unfold sendHello
  split
  · split
    · exact ⟨rfl, rfl, rfl⟩
    · exact ⟨rfl, rfl, rfl⟩
  · exact ⟨rfl, rfl, rfl⟩

theorem teardown_closed (s : PageSession) : s.teardown.Closed := by
  refine ⟨rfl, rfl, rfl, ?_⟩
  change (RelaySocket.close s.relay.1).readyState = .closing ∨
    (RelaySocket.close s.relay.1).readyState = .closed
  unfold RelaySocket.close
  split
  · exact .inr rfl
  · exact .inl rfl

/-- A closed session hears of its socket only that it has closed, and of its offers only that they
failed. -/
theorem Closed.on {e : SessionEvent} (h : s.Closed) (step : s.on text password e = some t) :
    t.Closed ∧ t.output = s.output := by
  have life := on_life step
  have shut : s.relay.1.readyState ≠ .opened ∧ s.relay.1.readyState ≠ .connecting := by
    constructor
    · intro opened
      rcases h.readyState with state | state <;> rw [state] at opened <;> cases opened
    · intro early
      rcases h.readyState with state | state <;> rw [state] at early <;> cases early
  suffices same : t.relay.1.onopen = s.relay.1.onopen ∧ t.output = s.output ∧
      (t.relay.1.readyState = .closing ∨ t.relay.1.readyState = .closed) by
    refine ⟨⟨?_, ?_, ?_, same.2.2⟩, same.2.1⟩
    · rw [life.pc]
      exact h.pc
    · rw [life.wired]
      exact h.wired
    · rw [same.1]
      exact h.onopen
  cases e with
  | offer =>
      obtain ⟨opened, -⟩ := Option.ite_none_left_eq_some.mp step
      exact absurd (not_not.mp opened) shut.1
  | settled k sdp =>
      obtain ⟨stage, -, step⟩ := Option.bind_eq_some_iff.mp step
      cases sdp with
      | none =>
          obtain rfl := Option.some.inj step
          exact ⟨rfl, rfl, h.readyState⟩
      | some sdp =>
          obtain ⟨alive, -⟩ := Option.ite_none_left_eq_some.mp step
          exact absurd h.pc alive
  | iceCandidate line =>
      obtain ⟨alive, -⟩ := Option.ite_none_right_eq_some.mp step
      exact absurd h.pc alive.1
  | socketOpen =>
      obtain ⟨relay, step, -⟩ := Option.map_eq_some_iff.mp step
      obtain ⟨step, -⟩ := Machine.recording_step_iff.mp step
      obtain ⟨early, -⟩ := Option.ite_none_right_eq_some.mp step
      exact absurd early shut.2
  | socketClosing =>
      obtain ⟨relay, step, -⟩ := Option.map_eq_some_iff.mp step
      obtain ⟨step, -⟩ := Machine.recording_step_iff.mp step
      obtain ⟨early, -⟩ := Option.ite_none_right_eq_some.mp step
      exact absurd early (not_or.mpr ⟨shut.2, shut.1⟩)
  | socketClosed =>
      obtain ⟨relay, event, rfl⟩ := Option.map_eq_some_iff.mp step
      obtain ⟨event, -⟩ := Machine.recording_step_iff.mp event
      obtain ⟨-, event⟩ := Option.ite_none_left_eq_some.mp event
      have after := Option.some.inj event
      refine ⟨?_, ?_, ?_⟩
      · exact (congrArg RelaySocket.onopen after).symm
      · exact Prod.ext (congrArg RelaySocket.sent after).symm rfl
      · exact .inr (congrArg RelaySocket.readyState after).symm
  | dataChannel =>
      obtain ⟨alive, -⟩ := Option.ite_none_right_eq_some.mp step
      exact absurd h.pc alive.1
  | channelOpen k =>
      obtain ⟨channel, -, step⟩ := Option.bind_eq_some_iff.mp step
      obtain ⟨alive, -⟩ := Option.ite_none_left_eq_some.mp step
      exact absurd (.inl h.pc) alive

theorem Closed.sendHello (h : s.Closed) (k : Nat) (pw : String) : s.sendHello k pw = s := by
  unfold PageSession.sendHello
  split
  · exact if_neg fun alive => alive.1 h.pc
  · rfl

end PageSession

namespace WebPage
open PageSession
variable {text : PagePayload → String} {s s' : WebPage}

/-- There is at most one attempt, counting one that waits, and at most one session that is not
closed: none while an attempt goes on. -/
structure Sessions (s : WebPage) : Prop where
  one : s.timers + s.attempts.length = s.connecting.toNat
  free : s.attempts ≠ [] → s.current = none
  replaced : ∀ i a, s.sessions[i]? = some a → s.current ≠ some i → a.Closed
  live : ∀ i, s.current = some i → ∃ a, s.sessions[i]? = some a ∧ a.Live

theorem modify_getElem? {l : List PageSession} {f : PageSession → PageSession} {i j : Nat}
    {b : PageSession} (found : (l.modify i f)[j]? = some b) :
    ∃ a, l[j]? = some a ∧ b = if i = j then f a else a := by
  rw [List.getElem?_modify] at found
  obtain ⟨a, at_, same⟩ := Option.map_eq_some_iff.mp found
  exact ⟨a, at_, same.symm⟩

theorem Sessions.modify (h : s.Sessions) {i : Nat} {f : PageSession → PageSession}
    (live : ∀ a, s.sessions[i]? = some a → a.Live → (f a).Live)
    (closed : ∀ a, s.sessions[i]? = some a → a.Closed → (f a).Closed) :
    ({ s with sessions := s.sessions.modify i f } : WebPage).Sessions where
  one := h.one
  free := h.free
  replaced := by
    intro j b found other
    obtain ⟨a, before, same⟩ := modify_getElem? found
    have was := h.replaced j a before other
    rw [same]
    split
    · rename_i here
      apply closed a _ was
      rw [here]
      exact before
    · exact was
  live := by
    intro j current
    obtain ⟨a, before, alive⟩ := h.live j current
    refine ⟨if i = j then f a else a, ?_, ?_⟩
    · rw [List.getElem?_modify, before]
      rfl
    · split
      · rename_i here
        apply live a _ alive
        rw [here]
        exact before
      · exact alive

theorem setSession_eq_modify (i : Nat) (b : PageSession) :
    s.setSession i b = { s with sessions := s.sessions.modify i fun _ => b } := by
  rw [setSession, List.set_eq_modify]

theorem Sessions.set (h : s.Sessions) {i : Nat} {a b : PageSession}
    (found : s.sessions[i]? = some a) (live : a.Live → b.Live) (closed : a.Closed → b.Closed) :
    (s.setSession i b).Sessions := by
  rw [setSession_eq_modify]
  apply h.modify
  · intro c there alive
    rw [found] at there
    rw [← Option.some.inj there] at alive
    exact live alive
  · intro c there shut
    rw [found] at there
    rw [← Option.some.inj there] at shut
    exact closed shut

theorem modifyCurrent_getElem? {f : PageSession → PageSession} {j : Nat} {b : PageSession}
    (found : (s.modifyCurrent f).sessions[j]? = some b) :
    ∃ a, s.sessions[j]? = some a ∧ b = if s.current = some j then f a else a := by
  cases current : s.current with
  | none =>
      rw [modifyCurrent, current] at found
      exact ⟨b, found, (if_neg (Option.some_ne_none j).symm).symm⟩
  | some i =>
      rw [modifyCurrent, current] at found
      obtain ⟨a, before, same⟩ := modify_getElem? found
      refine ⟨a, before, ?_⟩
      simp only [same, Option.some.injEq]

theorem Sessions.noted (h : s.Sessions) : (s.modifyCurrent noteUnhealthy).Sessions := by
  refine ⟨h.one, h.free, ?_, ?_⟩
  · intro i b found other
    obtain ⟨a, before, same⟩ := modifyCurrent_getElem? found
    change s.current ≠ some i at other
    rw [if_neg other] at same
    rw [same]
    exact h.replaced i a before other
  · intro i current
    obtain ⟨a, before, alive⟩ := h.live i current
    have changed : (s.modifyCurrent noteUnhealthy).sessions =
        s.sessions.modify i noteUnhealthy := by
      change s.current = some i at current
      rw [modifyCurrent, current]
    refine ⟨noteUnhealthy a, ?_, alive.pc, alive.wired⟩
    rw [changed, List.getElem?_modify_eq, before]
    rfl

theorem scheduleReconnect_connecting (s : WebPage) : s.scheduleReconnect.connecting = true := by
  unfold scheduleReconnect
  split
  · rename_i already
    exact already
  · rfl

theorem attemptFailed_connecting (s : WebPage) (k : Nat) :
    (s.attemptFailed k).connecting = true := scheduleReconnect_connecting _

theorem Sessions.schedule (h : s.Sessions) : s.scheduleReconnect.Sessions := by
  unfold scheduleReconnect
  split
  · exact h
  · rename_i idle
    have one := h.one
    rw [Bool.not_eq_true] at idle
    rw [idle] at one
    refine ⟨?_, h.free, h.replaced, h.live⟩
    change s.timers + 1 + s.attempts.length = 1
    change s.timers + s.attempts.length = 0 at one
    omega

/-- An attempt has ended. -/
theorem Sessions.finished (h : s.Sessions) {k : Nat} {stage : AttemptStage}
    (found : s.attempts[k]? = some stage) :
    s.connecting = true ∧ s.timers = 0 ∧ s.current = none ∧ s.attempts.eraseIdx k = [] := by
  obtain ⟨inside, -⟩ := List.getElem?_eq_some_iff.mp found
  have one := h.one
  have few : s.connecting.toNat ≤ 1 := Bool.toNat_le _
  have some_ : s.attempts ≠ [] := List.ne_nil_of_length_pos (by omega)
  refine ⟨?_, by omega, h.free some_, ?_⟩
  · cases busy : s.connecting with
    | true => rfl
    | false =>
        rw [busy] at one
        change s.timers + s.attempts.length = 0 at one
        omega
  · apply List.eq_nil_of_length_eq_zero
    rw [List.length_eraseIdx_of_lt inside]
    omega

theorem Sessions.attemptFailed (h : s.Sessions) {k : Nat} {stage : AttemptStage}
    (found : s.attempts[k]? = some stage) : (s.attemptFailed k).Sessions := by
  obtain ⟨-, idle, nobody, rest⟩ := h.finished found
  apply Sessions.schedule
  refine ⟨?_, fun _ => nobody, h.replaced, h.live⟩
  change s.timers + (s.attempts.eraseIdx k).length = 0
  rw [idle, rest]
  rfl

theorem Sessions.connected (h : s.Sessions) {k : Nat} {stage : AttemptStage}
    (found : s.attempts[k]? = some stage) : (s.connected text k).Sessions := by
  obtain ⟨-, idle, nobody, rest⟩ := h.finished found
  refine ⟨?_, ?_, ?_, ?_⟩
  · change s.timers + (s.attempts.eraseIdx k).length = 0
    rw [idle, rest]
    rfl
  · intro more
    exact absurd rest more
  · intro i a there other
    rcases Slots.getElem?_concat_cases there with before | ⟨new, -⟩
    · apply h.replaced i a before
      rw [nobody]
      exact (Option.some_ne_none i).symm
    · rw [new] at other
      exact absurd rfl other
  · intro i current
    obtain rfl := Option.some.inj current
    refine ⟨_, List.getElem?_concat_length, ?_⟩
    constructor
    · intro closed
      change PcState.new = .closed at closed
      cases closed
    · rfl

theorem connect_connecting (s : WebPage) : s.connect.connecting = true := by
  unfold WebPage.connect
  split
  · rename_i busy
    exact busy
  · rfl

theorem Sessions.connect (h : s.Sessions) : s.connect.Sessions := by
  unfold WebPage.connect
  split
  · exact h
  · rename_i idle
    have one := h.one
    rw [Bool.not_eq_true] at idle
    rw [idle] at one
    change s.timers + s.attempts.length = 0 at one
    refine ⟨?_, fun _ => rfl, ?_, ?_⟩
    · rw [List.length_append]
      change s.timers + (s.attempts.length + 1) = 1
      omega
    · intro i b found _
      obtain ⟨a, before, same⟩ := modifyCurrent_getElem? found
      rw [same]
      split
      · exact teardown_closed a
      · rename_i other
        exact h.replaced i a before other
    · intro i current
      change none = some i at current
      cases current

theorem Sessions.visibilityChange (h : s.Sessions) (hidden : Bool) :
    (s.visibilityChange hidden).Sessions := by
  have page : ({ s with hidden } : WebPage).Sessions := ⟨h.one, h.free, h.replaced, h.live⟩
  unfold WebPage.visibilityChange
  split
  · exact page
  · split
    · exact page
    · exact page.noted.schedule

theorem Sessions.pcState (h : s.Sessions) {i : Nat} {state : PcState}
    (step : s.pcState i state = some s') : s'.Sessions := by
  obtain ⟨a, found, step⟩ := Option.bind_eq_some_iff.mp step
  obtain ⟨open_, step⟩ := Option.ite_none_left_eq_some.mp step
  obtain ⟨open_, valid⟩ := not_or.mp open_
  split at step
  · rw [← Option.some.inj step]
    apply Sessions.schedule
    apply h.set found
    · intro alive
      exact ⟨valid, alive.wired⟩
    · intro shut
      exact absurd shut.pc open_
  · rw [← Option.some.inj step]
    apply h.set found
    · intro alive
      exact ⟨valid, alive.wired⟩
    · intro shut
      exact absurd shut.pc open_

theorem Sessions.submit (h : s.Sessions) (pw : String) : (s.submit pw).Sessions := by
  unfold WebPage.submit
  split
  · exact h
  · split
    · exact h
    · rename_i i k _
      have sent : ({ s with
          sessions := s.sessions.modify i (·.sendHello k pw) } : WebPage).Sessions := by
        apply h.modify
        · intro a _ alive
          exact (sendHello_life k pw).live alive
        · intro a _ shut
          rw [shut.sendHello]
          exact shut
      exact ⟨sent.one, sent.free, sent.replaced, sent.live⟩

theorem Sessions.step {l : PageLabel} (h : s.Sessions) (step : s.step text l = some s') :
    s'.Sessions := by
  cases l with
  | visibilityChange hidden =>
      rw [← Option.some.inj step]
      exact h.visibilityChange hidden
  | timer =>
      obtain ⟨waits, step⟩ := Option.ite_none_left_eq_some.mp step
      rw [← Option.some.inj step]
      have one := h.one
      have few : s.connecting.toNat ≤ 1 := Bool.toNat_le _
      refine ⟨?_, h.free, h.replaced, h.live⟩
      change s.timers - 1 + s.attempts.length = 0
      omega
  | start =>
      obtain ⟨-, step⟩ := Option.ite_none_left_eq_some.mp step
      rw [← Option.some.inj step]
      apply Sessions.connect
      exact ⟨h.one, h.free, h.replaced, h.live⟩
  | iceServers k created =>
      obtain ⟨waits, step⟩ := Option.ite_none_left_eq_some.mp step
      rw [← Option.some.inj step]
      cases created with
      | true =>
          refine ⟨?_, ?_, h.replaced, h.live⟩
          · rw [if_pos rfl, List.length_set]
            exact h.one
          · intro more
            apply h.free
            intro none_
            rw [if_pos rfl, none_] at more
            exact more rfl
      | false => exact h.attemptFailed (not_not.mp waits)
  | relayConnected k ok =>
      obtain ⟨waits, step⟩ := Option.ite_none_left_eq_some.mp step
      rw [← Option.some.inj step]
      cases ok with
      | true => exact h.connected (not_not.mp waits)
      | false => exact h.attemptFailed (not_not.mp waits)
  | pcState i state => exact h.pcState step
  | event i e =>
      obtain ⟨a, found, step⟩ := Option.bind_eq_some_iff.mp step
      obtain ⟨b, event, step⟩ := Option.map_eq_some_iff.mp step
      rw [← step]
      exact h.set found (on_life event).live fun shut => (shut.on event).1
  | helloAck i k passwordRequired =>
      obtain ⟨a, found, step⟩ := Option.bind_eq_some_iff.mp step
      obtain ⟨-, step⟩ := Option.ite_none_right_eq_some.mp step
      rw [← Option.some.inj step]
      split
      · exact ⟨h.one, h.free, h.replaced, h.live⟩
      · exact h
  | submit pw =>
      rw [← Option.some.inj step]
      exact h.submit pw

theorem start_getElem? {hidden : Bool} {password : Option String} {i : Nat} {a : PageSession}
    (found : (start hidden password).sessions[i]? = some a) : False := by
  change [][i]? = some a at found
  rw [List.getElem?_nil] at found
  cases found

theorem Sessions.start (hidden : Bool) (password : Option String) :
    (start hidden password).Sessions := by
  refine ⟨rfl, fun more => absurd rfl more, ?_, ?_⟩
  · intro i a found _
    exact (start_getElem? found).elim
  · intro i current
    change none = some i at current
    cases current

theorem reachable_sessions (run : (machine text).Reachable s) : s.Sessions := by
  apply run.invariant
  · rintro t ⟨hidden, password, rfl⟩
    exact .start hidden password
  · intro t l t' h step
    exact h.step step

/-- No attempt is made, and none waits. -/
def Idle (s : WebPage) : Prop := s.connecting = false ∧ s.spawned = 0

/-- A page at rest has a session, and a page that is seen no failed one. -/
def Awake (s : WebPage) : Prop :=
  s.Idle → ∃ a, s.session = some a ∧ (s.hidden = false → a.pc ≠ .failed)

theorem Awake.of_connecting (busy : s.connecting = true) : s.Awake := by
  intro idle
  exact absurd (busy.symm.trans idle.1) (by decide)

theorem session_modify (i : Nat) (f : PageSession → PageSession) :
    ({ s with sessions := s.sessions.modify i f } : WebPage).session =
      s.session.map fun a => if s.current = some i then f a else a := by
  unfold session
  cases current : s.current with
  | none => rfl
  | some j =>
      change (s.sessions.modify i f)[j]? = s.sessions[j]?.map _
      rw [List.getElem?_modify]
      apply congrArg (Option.map · s.sessions[j]?)
      funext a
      simp only [Option.some.injEq, eq_comm]

/-- A change of one session that leaves its connection as it is. -/
theorem Awake.modify (h : s.Awake) {i : Nat} {f : PageSession → PageSession}
    (same : ∀ a, s.sessions[i]? = some a → (f a).pc = a.pc) :
    ({ s with sessions := s.sessions.modify i f } : WebPage).Awake := by
  intro idle
  obtain ⟨a, here, good⟩ := h idle
  refine ⟨if s.current = some i then f a else a, ?_, ?_⟩
  · rw [session_modify, here]
    rfl
  · intro seen
    split
    · rename_i current
      rw [session, current] at here
      rw [same a here]
      exact good seen
    · exact good seen

theorem Awake.step {l : PageLabel} (h : s.Sessions) (awake : s.Awake)
    (step : s.step text l = some s') : s'.Awake := by
  cases l with
  | visibilityChange hidden =>
      rw [← Option.some.inj step]
      unfold visibilityChange
      cases hidden with
      | true =>
          rw [if_pos rfl]
          intro idle
          obtain ⟨a, here, -⟩ := awake idle
          exact ⟨a, here, nofun⟩
      | false =>
          rw [if_neg Bool.false_ne_true]
          split
          · rename_i healthy
            intro idle
            obtain ⟨a, here, -⟩ := awake idle
            refine ⟨a, here, ?_⟩
            intro _ failed
            rw [here, Option.any_some, isHealthy, failed] at healthy
            exact Bool.false_ne_true healthy
          · exact .of_connecting (scheduleReconnect_connecting _)
  | timer =>
      obtain ⟨-, step⟩ := Option.ite_none_left_eq_some.mp step
      rw [← Option.some.inj step]
      intro idle
      exact absurd idle.2 (Nat.succ_ne_zero _)
  | start =>
      obtain ⟨-, step⟩ := Option.ite_none_left_eq_some.mp step
      rw [← Option.some.inj step]
      exact .of_connecting (connect_connecting _)
  | iceServers k created =>
      obtain ⟨waits, step⟩ := Option.ite_none_left_eq_some.mp step
      rw [← Option.some.inj step]
      cases created with
      | true => exact .of_connecting (h.finished (not_not.mp waits)).1
      | false => exact .of_connecting (attemptFailed_connecting s k)
  | relayConnected k ok =>
      obtain ⟨waits, step⟩ := Option.ite_none_left_eq_some.mp step
      rw [← Option.some.inj step]
      cases ok with
      | true =>
          intro _
          refine ⟨_, List.getElem?_concat_length, ?_⟩
          intro _
          nofun
      | false => exact .of_connecting (attemptFailed_connecting s k)
  | pcState i state =>
      obtain ⟨a, found, step⟩ := Option.bind_eq_some_iff.mp step
      obtain ⟨open_, step⟩ := Option.ite_none_left_eq_some.mp step
      split at step
      · rw [← Option.some.inj step]
        exact .of_connecting (scheduleReconnect_connecting _)
      · rename_i quiet
        rw [← Option.some.inj step, setSession_eq_modify]
        intro idle
        obtain ⟨c, here, good⟩ := awake idle
        refine ⟨_, (session_modify i _).trans (congrArg _ here), ?_⟩
        intro seen
        split
        · rename_i current
          intro failed
          obtain ⟨d, there, alive⟩ := h.live i current
          rw [found] at there
          rw [← Option.some.inj there] at alive
          change s.hidden = false at seen
          apply quiet
          refine ⟨alive.wired, failed, ?_⟩
          rw [seen]
          exact Bool.false_ne_true
        · exact good seen
  | event i e =>
      obtain ⟨a, found, step⟩ := Option.bind_eq_some_iff.mp step
      obtain ⟨b, event, step⟩ := Option.map_eq_some_iff.mp step
      rw [← step, setSession_eq_modify]
      apply awake.modify
      intro c there
      rw [found] at there
      rw [← Option.some.inj there]
      exact (on_life event).pc
  | helloAck i k passwordRequired =>
      obtain ⟨a, found, step⟩ := Option.bind_eq_some_iff.mp step
      obtain ⟨-, step⟩ := Option.ite_none_right_eq_some.mp step
      rw [← Option.some.inj step]
      split
      · exact awake
      · exact awake
  | submit pw =>
      rw [← Option.some.inj step]
      unfold submit
      split
      · exact awake
      · split
        · exact awake
        · exact awake.modify fun a _ => (sendHello_life _ pw).pc

theorem reachable_awake (run : (machine text).Reachable s) : s.Awake := by
  have both : s.Sessions ∧ s.Awake := by
    apply run.invariant (I := fun t => t.Sessions ∧ t.Awake)
    · rintro t ⟨hidden, password, rfl⟩
      refine ⟨.start hidden password, ?_⟩
      intro idle
      exact absurd idle.2 Nat.one_ne_zero
    · intro t l t' h step
      exact ⟨h.1.step step, h.2.step h.1 step⟩
  exact both.2

/-- A session that says no more than it has said. -/
def Silent (before a : PageSession) : Prop := a.Closed ∧ a.output = before.output

theorem modify_silent {i j : Nat} {f : PageSession → PageSession} {a : PageSession}
    (found : s.sessions[j]? = some a) (kept : i = j → Silent a (f a)) (shut : a.Closed) :
    ∃ b, (s.sessions.modify i f)[j]? = some b ∧ Silent a b := by
  refine ⟨if i = j then f a else a, ?_, ?_⟩
  · rw [List.getElem?_modify, found]
    rfl
  · split
    · rename_i here
      exact kept here
    · exact ⟨shut, rfl⟩

theorem scheduleReconnect_sessions (s : WebPage) : s.scheduleReconnect.sessions = s.sessions := by
  unfold scheduleReconnect
  split <;> rfl

theorem attemptFailed_sessions (s : WebPage) (k : Nat) :
    (s.attemptFailed k).sessions = s.sessions := scheduleReconnect_sessions _

theorem modifyCurrent_silent {j : Nat} {f : PageSession → PageSession} {a : PageSession}
    (found : s.sessions[j]? = some a) (kept : Silent a (f a)) (shut : a.Closed) :
    ∃ b, (s.modifyCurrent f).sessions[j]? = some b ∧ Silent a b := by
  unfold modifyCurrent
  cases s.current with
  | none => exact ⟨a, found, shut, rfl⟩
  | some i => exact modify_silent found (fun _ => kept) shut

/-- No step makes a closed session speak. -/
theorem step_silent {l : PageLabel} {j : Nat} {a : PageSession}
    (found : s.sessions[j]? = some a) (shut : a.Closed) (step : s.step text l = some s') :
    ∃ b, s'.sessions[j]? = some b ∧ Silent a b := by
  cases l with
  | visibilityChange hidden =>
      rw [← Option.some.inj step]
      unfold visibilityChange
      split
      · exact ⟨a, found, shut, rfl⟩
      · split
        · exact ⟨a, found, shut, rfl⟩
        · rw [scheduleReconnect_sessions]
          apply modifyCurrent_silent (s := { s with hidden }) found _ shut
          exact ⟨⟨shut.pc, shut.wired, shut.onopen, shut.readyState⟩, rfl⟩
  | timer =>
      obtain ⟨-, step⟩ := Option.ite_none_left_eq_some.mp step
      rw [← Option.some.inj step]
      exact ⟨a, found, shut, rfl⟩
  | start =>
      obtain ⟨-, step⟩ := Option.ite_none_left_eq_some.mp step
      rw [← Option.some.inj step]
      unfold connect
      split
      · exact ⟨a, found, shut, rfl⟩
      · apply modifyCurrent_silent (s := { s with spawned := s.spawned - 1 }) found _ shut
        exact ⟨teardown_closed a, rfl⟩
  | iceServers k created =>
      obtain ⟨-, step⟩ := Option.ite_none_left_eq_some.mp step
      rw [← Option.some.inj step]
      cases created with
      | true => exact ⟨a, found, shut, rfl⟩
      | false =>
          refine ⟨a, ?_, shut, rfl⟩
          change (s.attemptFailed k).sessions[j]? = some a
          rw [attemptFailed_sessions, found]
  | relayConnected k ok =>
      obtain ⟨-, step⟩ := Option.ite_none_left_eq_some.mp step
      rw [← Option.some.inj step]
      cases ok with
      | true =>
          refine ⟨a, ?_, shut, rfl⟩
          obtain ⟨inside, -⟩ := List.getElem?_eq_some_iff.mp found
          change (s.sessions ++ _)[j]? = _
          rw [List.getElem?_append_left inside, found]
      | false =>
          refine ⟨a, ?_, shut, rfl⟩
          change (s.attemptFailed k).sessions[j]? = some a
          rw [attemptFailed_sessions, found]
  | pcState i state =>
      obtain ⟨b, there, step⟩ := Option.bind_eq_some_iff.mp step
      obtain ⟨open_, step⟩ := Option.ite_none_left_eq_some.mp step
      obtain ⟨open_, -⟩ := not_or.mp open_
      have other : i ≠ j := by
        intro same
        rw [same, found] at there
        rw [← Option.some.inj there] at open_
        exact open_ shut.pc
      refine ⟨a, ?_, shut, rfl⟩
      split at step
      · rw [← Option.some.inj step, scheduleReconnect_sessions, setSession,
          List.getElem?_set_ne other, found]
      · rw [← Option.some.inj step, setSession, List.getElem?_set_ne other, found]
  | event i e =>
      obtain ⟨b, there, step⟩ := Option.bind_eq_some_iff.mp step
      obtain ⟨c, event, step⟩ := Option.map_eq_some_iff.mp step
      rw [← step, setSession_eq_modify]
      apply modify_silent found _ shut
      intro here
      rw [here, found] at there
      rw [← Option.some.inj there] at event
      exact shut.on event
  | helloAck i k passwordRequired =>
      obtain ⟨b, -, step⟩ := Option.bind_eq_some_iff.mp step
      obtain ⟨-, step⟩ := Option.ite_none_right_eq_some.mp step
      rw [← Option.some.inj step]
      refine ⟨a, ?_, shut, rfl⟩
      split
      · exact found
      · exact found
  | submit pw =>
      rw [← Option.some.inj step]
      unfold submit
      split
      · exact ⟨a, found, shut, rfl⟩
      · split
        · exact ⟨a, found, shut, rfl⟩
        · apply modify_silent found _ shut
          intro _
          rw [shut.sendHello]
          exact ⟨shut, rfl⟩

/-- In every state there is at most one attempt to connect, counting one that waits for its second.
Every session but the current one is closed, and the current one goes before another is made. -/
theorem page_one_session (run : (machine text).Reachable s) :
    s.timers + s.attempts.length ≤ 1 ∧ (s.attempts ≠ [] → s.current = none) ∧
      ∀ i a, s.sessions[i]? = some a → s.current ≠ some i → a.Closed := by
  have h := reachable_sessions run
  refine ⟨?_, h.free, h.replaced⟩
  rw [h.one]
  exact Bool.toNat_le _

/-- A page that makes no attempt has a session that is not torn down and hears of its connection;
while the page is seen that has not failed. -/
theorem page_idle_alive (run : (machine text).Reachable s) (idle : s.Idle) :
    ∃ i a, s.current = some i ∧ s.sessions[i]? = some a ∧ a.Live ∧
      (s.hidden = false → a.pc ≠ .failed) := by
  obtain ⟨a, here, good⟩ := reachable_awake run idle
  obtain ⟨i, current, found⟩ := Option.bind_eq_some_iff.mp here
  obtain ⟨b, there, alive⟩ := (reachable_sessions run).live i current
  rw [found] at there
  rw [← Option.some.inj there] at alive
  exact ⟨i, a, current, found, alive, good⟩

/-- A session that was replaced sends nothing more, whatever happens after. -/
theorem page_replaced_silent {i : Nat} {a : PageSession} (run : (machine text).Reachable s)
    (found : s.sessions[i]? = some a) (replaced : s.current ≠ some i)
    (rest : ((machine text).startingAt s).Reachable s') :
    ∃ b, s'.sessions[i]? = some b ∧ b.output = a.output := by
  have shut := (reachable_sessions run).replaced i a found replaced
  have later : ∃ b, s'.sessions[i]? = some b ∧ Silent a b := by
    apply rest.invariant (I := fun t => ∃ b, t.sessions[i]? = some b ∧ Silent a b)
    · intro t here
      rw [here]
      exact ⟨a, found, shut, rfl⟩
    · intro t l t' h step
      obtain ⟨b, there, closed, same⟩ := h
      obtain ⟨c, after, still, more⟩ := step_silent there closed step
      exact ⟨c, after, still, more.trans same⟩
  obtain ⟨b, there, -, same⟩ := later
  exact ⟨b, there, same⟩

/-- A future that was spawned begins before the page's next task. -/
def Prompt (s : WebPage) (l : PageLabel) : Prop := s.spawned = 0 ∨ l = .start

instance (s : WebPage) (l : PageLabel) : Decidable (s.Prompt l) :=
  inferInstanceAs (Decidable (_ ∨ _))

/-- A reconnect is due only for a session that was found unhealthy. -/
structure Due (s : WebPage) : Prop where
  turn : s.spawned + s.timers + s.attempts.length ≤ 1
  due : 0 < s.spawned + s.timers → ∀ a, s.session = some a → a.unhealthy = true
  past : ∀ i a, s.sessions[i]? = some a → s.current ≠ some i → a.unhealthy = true

theorem Due.modify (h : s.Due) {i : Nat} {f : PageSession → PageSession}
    (kept : ∀ a, s.sessions[i]? = some a → a.unhealthy = true → (f a).unhealthy = true) :
    ({ s with sessions := s.sessions.modify i f } : WebPage).Due where
  turn := h.turn
  due := by
    intro waits b here
    rw [session_modify] at here
    obtain ⟨a, before, same⟩ := Option.map_eq_some_iff.mp here
    have was := h.due waits a before
    rw [← same]
    split
    · rename_i current
      apply kept a _ was
      rw [session, current] at before
      exact before
    · exact was
  past := by
    intro j b found other
    obtain ⟨a, before, same⟩ := modify_getElem? found
    have was := h.past j a before other
    rw [same]
    split
    · rename_i here
      apply kept a _ was
      rw [here]
      exact before
    · exact was

/-- A reconnect may be scheduled once the session is known to be unhealthy. -/
theorem Due.schedule (h : s.Due) (one : s.Sessions) (quiet : s.spawned = 0)
    (known : ∀ a, s.session = some a → a.unhealthy = true) : s.scheduleReconnect.Due := by
  unfold scheduleReconnect
  split
  · exact h
  · rename_i idle
    have count := one.one
    rw [Bool.not_eq_true] at idle
    rw [idle] at count
    change s.timers + s.attempts.length = 0 at count
    refine ⟨?_, fun _ => known, h.past⟩
    change s.spawned + (s.timers + 1) + s.attempts.length ≤ 1
    omega

theorem Due.attemptFailed (h : s.Due) (one : s.Sessions) (quiet : s.spawned = 0) {k : Nat}
    {stage : AttemptStage} (found : s.attempts[k]? = some stage) : (s.attemptFailed k).Due := by
  obtain ⟨-, idle, nobody, rest⟩ := one.finished found
  have after : ({ s with
      connecting := false, attempts := s.attempts.eraseIdx k } : WebPage).Sessions := by
    refine ⟨?_, fun _ => nobody, one.replaced, one.live⟩
    change s.timers + (s.attempts.eraseIdx k).length = 0
    rw [idle, rest]
    rfl
  have none_ : s.session = none := by rw [session, nobody]; rfl
  apply Due.schedule _ after quiet
  · intro a here
    exact absurd (none_.symm.trans here) (Option.some_ne_none a).symm
  · refine ⟨?_, h.due, h.past⟩
    change s.spawned + s.timers + (s.attempts.eraseIdx k).length ≤ 1
    rw [quiet, idle, rest]
    exact Nat.zero_le _

theorem Due.connected (h : s.Due) (one : s.Sessions) (quiet : s.spawned = 0) {k : Nat}
    {stage : AttemptStage} (found : s.attempts[k]? = some stage) : (s.connected text k).Due := by
  obtain ⟨-, idle, nobody, rest⟩ := one.finished found
  refine ⟨?_, ?_, ?_⟩
  · change s.spawned + s.timers + (s.attempts.eraseIdx k).length ≤ 1
    rw [quiet, idle, rest]
    exact Nat.zero_le _
  · intro waits
    change 0 < s.spawned + s.timers at waits
    omega
  · intro i a there other
    rcases Slots.getElem?_concat_cases there with before | ⟨new, -⟩
    · apply h.past i a before
      rw [nobody]
      exact (Option.some_ne_none i).symm
    · rw [new] at other
      exact absurd rfl other

/-- The session that is replaced is the one for which the reconnect was due. -/
theorem Due.connect (h : s.Due) (one : s.Sessions) (waits : s.spawned ≠ 0) :
    ({ s with spawned := s.spawned - 1 } : WebPage).connect.Due := by
  have turn := h.turn
  have count := one.one
  unfold WebPage.connect
  split
  · rename_i busy
    change s.connecting = true at busy
    rw [busy] at count
    change s.timers + s.attempts.length = 1 at count
    omega
  · refine ⟨?_, ?_, ?_⟩
    · rw [List.length_append]
      change s.spawned - 1 + s.timers + (s.attempts.length + 1) ≤ 1
      omega
    · intro _ a here
      change none = some a at here
      cases here
    · intro i b found _
      obtain ⟨a, before, same⟩ := modifyCurrent_getElem? found
      change s.sessions[i]? = some a at before
      rw [same]
      split
      · rename_i current
        change s.current = some i at current
        have here : s.session = some a := by
          rw [session, current]
          exact before
        exact h.due (by omega) a here
      · rename_i other
        exact h.past i a before other

theorem noted_unhealthy {a : PageSession}
    (here : (s.modifyCurrent noteUnhealthy).session = some a) : a.unhealthy = true := by
  obtain ⟨i, current, found⟩ := Option.bind_eq_some_iff.mp here
  obtain ⟨b, -, same⟩ := modifyCurrent_getElem? found
  change s.current = some i at current
  rw [same, if_pos current]
  rfl

theorem Due.noted (h : s.Due) : (s.modifyCurrent noteUnhealthy).Due where
  turn := h.turn
  due _ _ here := noted_unhealthy here
  past := by
    intro i b found other
    obtain ⟨a, before, same⟩ := modifyCurrent_getElem? found
    change s.current ≠ some i at other
    rw [same, if_neg other]
    exact h.past i a before other

theorem Due.visibilityChange (h : s.Due) (one : s.Sessions) (quiet : s.spawned = 0)
    (hidden : Bool) : (s.visibilityChange hidden).Due := by
  have page : ({ s with hidden } : WebPage).Due := ⟨h.turn, h.due, h.past⟩
  have sessions : ({ s with hidden } : WebPage).Sessions :=
    ⟨one.one, one.free, one.replaced, one.live⟩
  unfold WebPage.visibilityChange
  split
  · exact page
  · split
    · exact page
    · exact page.noted.schedule sessions.noted quiet fun a here => noted_unhealthy here

theorem Due.pcState (h : s.Due) (one : s.Sessions) (quiet : s.spawned = 0) {i : Nat}
    {state : PcState} (step : s.pcState i state = some s') : s'.Due := by
  obtain ⟨a, found, step⟩ := Option.bind_eq_some_iff.mp step
  obtain ⟨open_, step⟩ := Option.ite_none_left_eq_some.mp step
  obtain ⟨open_, valid⟩ := not_or.mp open_
  -- a connection that is not closed is the current one's
  have current : s.current = some i := by
    by_contra other
    exact open_ (one.replaced i a found other).pc
  split at step
  · rw [← Option.some.inj step]
    have marked : (s.setSession i { a with pc := state, unhealthy := true }).Due := by
      rw [setSession_eq_modify]
      exact h.modify fun _ _ _ => rfl
    have kept : (s.setSession i { a with pc := state, unhealthy := true }).Sessions := by
      apply one.set found
      · intro alive
        exact ⟨valid, alive.wired⟩
      · intro shut
        exact absurd shut.pc open_
    apply marked.schedule kept quiet
    intro b here
    rw [setSession_eq_modify, session_modify] at here
    obtain ⟨c, -, same⟩ := Option.map_eq_some_iff.mp here
    rw [← same, if_pos current]
  · rw [← Option.some.inj step, setSession_eq_modify]
    apply h.modify
    intro b there was
    rw [found] at there
    rw [← Option.some.inj there] at was
    exact was

theorem Due.step {l : PageLabel} (h : s.Due) (one : s.Sessions) (prompt : s.Prompt l)
    (step : s.step text l = some s') : s'.Due := by
  have quiet : l ≠ .start → s.spawned = 0 := prompt.resolve_right
  cases l with
  | visibilityChange hidden =>
      rw [← Option.some.inj step]
      exact h.visibilityChange one (quiet nofun) hidden
  | timer =>
      obtain ⟨waits, step⟩ := Option.ite_none_left_eq_some.mp step
      rw [← Option.some.inj step]
      have turn := h.turn
      refine ⟨?_, ?_, h.past⟩
      · change s.spawned + 1 + (s.timers - 1) + s.attempts.length ≤ 1
        omega
      · intro _
        exact h.due (by omega)
  | start =>
      obtain ⟨waits, step⟩ := Option.ite_none_left_eq_some.mp step
      rw [← Option.some.inj step]
      exact h.connect one waits
  | iceServers k created =>
      obtain ⟨waits, step⟩ := Option.ite_none_left_eq_some.mp step
      rw [← Option.some.inj step]
      cases created with
      | true =>
          refine ⟨?_, h.due, h.past⟩
          rw [if_pos rfl, List.length_set]
          exact h.turn
      | false => exact h.attemptFailed one (quiet nofun) (not_not.mp waits)
  | relayConnected k ok =>
      obtain ⟨waits, step⟩ := Option.ite_none_left_eq_some.mp step
      rw [← Option.some.inj step]
      cases ok with
      | true => exact h.connected one (quiet nofun) (not_not.mp waits)
      | false => exact h.attemptFailed one (quiet nofun) (not_not.mp waits)
  | pcState i state => exact h.pcState one (quiet nofun) step
  | event i e =>
      obtain ⟨a, found, step⟩ := Option.bind_eq_some_iff.mp step
      obtain ⟨b, event, step⟩ := Option.map_eq_some_iff.mp step
      rw [← step, setSession_eq_modify]
      apply h.modify
      intro c there was
      rw [found] at there
      rw [← Option.some.inj there] at was
      rw [(on_life event).unhealthy]
      exact was
  | helloAck i k passwordRequired =>
      obtain ⟨a, found, step⟩ := Option.bind_eq_some_iff.mp step
      obtain ⟨-, step⟩ := Option.ite_none_right_eq_some.mp step
      rw [← Option.some.inj step]
      split
      · exact ⟨h.turn, h.due, h.past⟩
      · exact h
  | submit pw =>
      rw [← Option.some.inj step]
      unfold submit
      split
      · exact h
      · split
        · exact h
        · rename_i i k _
          have sent : ({ s with
              sessions := s.sessions.modify i (·.sendHello k pw) } : WebPage).Due := by
            apply h.modify
            intro a _ was
            rw [(sendHello_life k pw).unhealthy]
            exact was
          exact ⟨sent.turn, sent.due, sent.past⟩

/-- The page replaces no session that is well: each one that was replaced had failed while the page
was seen, or was found neither connected nor on its way when the page came back. -/
theorem page_replaces_unhealthy (run : (machine text).ReachableBy Prompt s) (i : Nat)
    (a : PageSession) (found : s.sessions[i]? = some a) (replaced : s.current ≠ some i) :
    a.unhealthy = true := by
  have both : s.Sessions ∧ s.Due := by
    apply run.invariant (I := fun t => t.Sessions ∧ t.Due)
    · rintro t ⟨hidden, password, rfl⟩
      refine ⟨.start hidden password, Nat.le_refl 1, ?_, ?_⟩
      · intro _ b here
        change none = some b at here
        cases here
      · intro j b there _
        exact (start_getElem? there).elim
    · intro t l t' h prompt step
      exact ⟨h.1.step step, h.2.step h.1 prompt step⟩
  exact both.2.past i a found replaced

/-- A text form of what the page sends. -/
def sampleText : PagePayload → String
  | .hello => "hello"
  | .answer sdp => "answer " ++ sdp
  | .candidate line => "candidate " ++ line

/-- A session is answered and fails, and its place is taken. -/
def sampleReconnect : List PageLabel :=
  [.start, .iceServers 0 true, .relayConnected 0 true, .event 0 .socketOpen, .event 0 .offer,
    .event 0 (.settled 0 (some "")), .event 0 (.settled 0 (some "sdp")),
    .event 0 (.settled 0 (some "")), .event 0 .offer, .pcState 0 .connected, .pcState 0 .failed,
    .timer, .start, .iceServers 0 true]

/-- While the second attempt goes on, the first session is closed. -/
theorem page_one_session_reconnect : ∃ s, (machine sampleText).Reachable s ∧
    s.attempts = [.relay] ∧ s.current = none ∧ ∃ a, s.sessions = [a] ∧ a.Closed := by
  obtain ⟨s, run, attempts, one⟩ := Machine.exists_reachableBy (machine sampleText)
    Machine.Always (s := start false none) ⟨false, none, rfl⟩ sampleReconnect
    (fun s => s.attempts = [.relay] ∧ s.sessions.length = 1) (by decide +kernel)
  obtain ⟨-, free, replaced⟩ := page_one_session run
  have nobody := free (by rw [attempts]; nofun)
  obtain ⟨a, only⟩ := List.length_eq_one_iff.mp one
  refine ⟨s, run, attempts, nobody, a, only, ?_⟩
  apply replaced 0 a
  · rw [only]
    rfl
  · rw [nobody]
    nofun

/-- The second session is there, and the page is at rest. -/
theorem page_idle_alive_second : ∃ s, (machine sampleText).Reachable s ∧
    s.sessions.map (·.pc) = [.closed, .new] ∧
    ∃ i a, s.current = some i ∧ s.sessions[i]? = some a ∧ a.Live ∧
      (s.hidden = false → a.pc ≠ .failed) := by
  obtain ⟨s, run, states, idle⟩ := Machine.exists_reachableBy (machine sampleText)
    Machine.Always (s := start false none) ⟨false, none, rfl⟩
    (sampleReconnect ++ [.relayConnected 0 true])
    (fun s => s.sessions.map (·.pc) = [.closed, .new] ∧ s.connecting = false ∧ s.spawned = 0)
    (by decide +kernel)
  exact ⟨s, run, states, page_idle_alive run idle⟩

/-- The promise of an offer that the first session was handling is rejected after it was
replaced. -/
theorem page_replaced_silent_first : ∃ s s', (machine sampleText).Reachable s ∧
    ((machine sampleText).startingAt s).Reachable s' ∧
    ∃ a, s.sessions[0]? = some a ∧ a.answering = [.setRemote] ∧
      ∃ b, s'.sessions[0]? = some b ∧ b.output = a.output := by
  obtain ⟨s, run, nobody, handling, goes_on⟩ := Machine.exists_reachableBy (machine sampleText)
    Machine.Always (s := start false none) ⟨false, none, rfl⟩ sampleReconnect
    (fun s => s.current = none ∧ s.sessions[0]?.map (·.answering) = some [.setRemote] ∧
      (((machine sampleText).startingAt s).exec Machine.Always s
        [.event 0 (.settled 0 none), .event 0 .socketClosed]).isSome = true) (by decide +kernel)
  obtain ⟨a, found, handling⟩ := Option.map_eq_some_iff.mp handling
  obtain ⟨s', rest⟩ := Option.isSome_iff_exists.mp goes_on
  have after : ((machine sampleText).startingAt s).Reachable s' :=
    Machine.exec_reachableBy (.start rfl) (fun _ _ _ met => met) rest
  refine ⟨s, s', run, after, a, found, handling, page_replaced_silent run found ?_ after⟩
  rw [nobody]
  nofun

/-- The session that was replaced had failed. -/
theorem page_replaces_unhealthy_first : ∃ s, (machine sampleText).ReachableBy Prompt s ∧
    ∃ a, s.sessions = [a] ∧ a.unhealthy = true := by
  obtain ⟨s, run, nobody, one⟩ := Machine.exists_reachableBy (machine sampleText)
    Prompt (s := start false none) ⟨false, none, rfl⟩ sampleReconnect
    (fun s => s.current = none ∧ s.sessions.length = 1) (by decide +kernel)
  obtain ⟨a, only⟩ := List.length_eq_one_iff.mp one
  refine ⟨s, run, a, only, page_replaces_unhealthy run 0 a ?_ ?_⟩
  · rw [only]
    rfl
  · rw [nobody]
    nofun

end WebPage
end ReachMyDevice
