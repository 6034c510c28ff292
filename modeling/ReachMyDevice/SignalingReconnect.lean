import ReachMyDevice.RendezvousClient

/-!
# Signaling sockets that reconnect under a live session

Two connected drivers need no signaling any more. A driver that has negotiated
takes any further description for a new session.
-/
namespace ReachMyDevice
open Machines Driver

variable {J : Type}

/-- A message that a connected driver can do without harm. -/
def SignalMsg.trickles : SignalMsg J → Bool
  | .candidate _ => true
  | .offer _ | .answer _ => false

def DriverCmd.calm : DriverCmd J → Bool
  | .video _ | .data _ => true
  | .signal msg => msg.trickles
  | .iceRestart | .shutdown => false

def RelayPayload.calm : RelayPayload J → Bool
  | .hello => true
  | .signal msg => msg.trickles

def ConnectionState.lost : ConnectionState → Bool
  | .disconnected | .failed | .closed => true
  | .new | .connecting | .connected => false

/-- Nothing ends the connection: it is not lost, and the driver is not told to leave it. -/
def DriverLabel.peaceful : DriverLabel J → Bool
  | .command cmd _ => cmd.calm
  | .event (.connectionStateChange s) => !s.lost
  | .fault => false
  | _ => true

namespace Driver

/-- The driver goes on with the connection `n`, on which it has negotiated. -/
structure Standing (n : Nat) (d : Driver J) : Prop where
  id : d.pc.id = n
  negotiatedOnce : d.negotiatedOnce = true
  rebuild : d.rebuild = false
  running : d.phase ≠ .stopped

theorem trickles_of_trickle {msgs : List (SignalMsg J)} (h : Trickle msgs) :
    ∀ msg ∈ msgs, msg.trickles = true := by
  intro msg member
  have noOffer := List.filterMap_eq_nil_iff.mp h.offers msg member
  have noAnswer := List.filterMap_eq_nil_iff.mp h.answers msg member
  cases msg with
  | candidate line => rfl
  | offer json => cases noOffer
  | answer json => cases noAnswer

theorem drainCommand_standing (rtc : Rtc J) {d : Driver J} {n : Nat} {cmd : DriverCmd J}
    (outcome : SetRemote) (h : Standing n d) (calm : cmd.calm = true) :
    Standing n (drainCommand rtc d cmd outcome).1 := by
  cases cmd with
  | video frame => exact h
  | data bytes => exact h
  | signal msg =>
      cases msg with
      | candidate line =>
          simp only [drainCommand, applySignal]
          split <;> exact ⟨h.id, h.negotiatedOnce, h.rebuild, h.running⟩
      | offer json => cases calm
      | answer json => cases calm
  | iceRestart => cases calm
  | shutdown => cases calm

theorem drainEvent_standing {d : Driver J} {n : Nat} {e : PcEvent} (h : Standing n d)
    (peaceful : (DriverLabel.event (J := J) e).peaceful = true) : Standing n (drainEvent d e).1 := by
  cases e with
  | connectionStateChange s =>
      cases s with
      | new | connecting => exact h
      | connected =>
          simp only [drainEvent]
          split
          · exact h
          · exact ⟨h.id, h.negotiatedOnce, h.rebuild, h.running⟩
      | disconnected | failed | closed => cases peaceful
  | iceCandidate c => cases c <;> exact h
  | dataChannelOpen id => exact ⟨h.id, h.negotiatedOnce, h.rebuild, h.running⟩
  | other => exact h

/-- In peace a driver keeps its connection, and has only candidates to tell. -/
theorem step_standing {rtc : Rtc J} {d d' : Driver J} {l : DriverLabel J}
    {out : List (DriverOut J)} {n : Nat} (h : Standing n d) (peaceful : l.peaceful = true)
    (taken : step rtc d l = some (d', out)) :
    Standing n d' ∧ ∀ msg ∈ signaled out, msg.trickles = true := by
  have quiet : Quiet d l d' (signaled out) := by
    apply step_quiet taken
    · intro json outcome
      constructor <;> rintro rfl <;> cases peaceful
    · rintro gathered outcome rfl wanted
      rw [h.rebuild] at wanted
      cases wanted
  refine ⟨?_, trickles_of_trickle quiet.sent⟩
  cases turn_of_step taken with
  | command cmd outcome _ same =>
      have standing := drainCommand_standing rtc outcome h peaceful
      rwa [same] at standing
  | event e _ same =>
      have standing := drainEvent_standing h peaceful
      rwa [same] at standing
  | renews gathered outcome _ wanted _ => cases h.rebuild.symm.trans wanted
  | established => exact ⟨h.id, h.negotiatedOnce, h.rebuild, h.running⟩
  | read => exact h
  | stays | commandsDone | readsDone => exact ⟨h.id, h.negotiatedOnce, h.rebuild, by simp⟩
  | fault => cases peaceful

end Driver

namespace Endpoint

/-- No description is on its way out of or into a device, and its signaling stays with the
peer it has. -/
structure Settled (e : Endpoint J) (peer : String) : Prop where
  commands : ∀ c ∈ e.link.commands, c.calm = true
  events : ∀ msg ∈ eventSignals e.link.events, msg.trickles = true
  outbox : ∀ msg ∈ e.outbox, msg.trickles = true
  inbox : ∀ msg ∈ e.inbox, msg.trickles = true
  toRelay : ∀ frame ∈ e.toRelay, frame.payload.calm = true
  fromRelay : ∀ payload ∈ e.fromRelay, payload.calm = true
  peer : e.client.peer = some peer
  peerSwitched : e.client.peerSwitched = false

end Endpoint

def EndpointLabel.peaceful : EndpointLabel J → Bool
  | .driver (.command _ _) => true
  | .driver l => l.peaceful
  | .command cmd => cmd.calm
  | _ => true

namespace Endpoint
variable {e o e' o' : Endpoint J} {rtc : Rtc J} {n : Nat}

/-- The client has nothing to replay when it is to read an announcement. -/
def NoReplay (e : Endpoint J) : EndpointLabel J → Prop
  | .receive => e.fromRelay.head? = some .hello → e.client.lastOffer = none
  | _ => True

structure Calm (n : Nat) (e o : Endpoint J) : Prop extends Settled e o.id where
  standing : Standing n e.link.driver

theorem Calm.advance [DecidableEq J] {l : DriverLabel J} {k : Link J} {out : List (DriverOut J)}
    (h : Calm n e o) (peaceful : (EndpointLabel.driver l).peaceful = true)
    (advanced : Link.Advanced rtc e.link l k out) : Calm n { e with link := k } o := by
  have quiet : l.peaceful = true := by
    cases l with
    | command cmd outcome => exact h.commands cmd (Link.takeCommand_taken advanced.commands)
    | _ => exact peaceful
  obtain ⟨standing, told⟩ := step_standing h.standing quiet advanced.step
  refine ⟨{ h.toSettled with commands := ?_, events := ?_ }, standing⟩
  · intro c queued
    exact h.commands c (Link.takeCommand_subset advanced.commands queued)
  · simp only [advanced.eventSignals]
    exact List.forall_mem_append.mpr ⟨h.events, told⟩

theorem Calm.receive (h : Calm n e o) {payload : RelayPayload J} {rest : List (RelayPayload J)}
    (queue : e.fromRelay = payload :: rest) (met : NoReplay e .receive) :
    Calm n { e with
      client := (e.client.receive o.id payload).1
      toRelay := e.toRelay ++ (e.client.receive o.id payload).2.1
      inbox := e.inbox ++ (e.client.receive o.id payload).2.2
      fromRelay := rest } o := by
  have incoming : ∀ p ∈ rest, p.calm = true := fun p member =>
    h.fromRelay p (queue ▸ List.mem_cons_of_mem _ member)
  cases payload with
  | signal msg =>
      have calm := h.fromRelay (.signal msg) (queue ▸ List.mem_cons_self)
      rw [RendezvousClient.receive_signal h.peer]
      refine ⟨{ h.toSettled with inbox := ?_, toRelay := ?_, fromRelay := incoming }, h.standing⟩
      · exact List.forall_mem_append.mpr ⟨h.inbox, List.forall_mem_singleton.mpr calm⟩
      · simp only [List.append_nil]
        exact h.toRelay
  | hello =>
      have nothing : e.client.lastOffer = none := met (by rw [queue]; rfl)
      rw [RendezvousClient.receive_hello h.peer]
      simp only [RendezvousClient.replay, nothing, List.append_nil]
      exact ⟨{ h.toSettled with fromRelay := incoming }, h.standing⟩

theorem Calm.takeEvent (h : Calm n e o) {ev : Pc J × TransportEvent J}
    {rest : List (Pc J × TransportEvent J)}
    (queue : e.link.events = ev :: rest) :
    Calm n { e with link := { e.link with events := rest },
                    outbox := e.outbox ++ eventSignals [ev] } o := by
  have calm : ∀ msg ∈ eventSignals [ev] ++ eventSignals rest, msg.trickles = true := by
    rw [← eventSignals_cons, ← queue]
    exact h.events
  obtain ⟨head, tail⟩ := List.forall_mem_append.mp calm
  exact ⟨{ h.toSettled with events := tail, outbox := List.forall_mem_append.mpr ⟨h.outbox, head⟩ },
    h.standing⟩

theorem Calm.send (h : Calm n e o) {msg : SignalMsg J} {rest : List (SignalMsg J)}
    (queue : e.outbox = msg :: rest) :
    Calm n { e with client := e.client.record msg, outbox := rest,
                    toRelay := e.toRelay ++ [⟨o.id, .signal msg⟩] } o := by
  obtain ⟨outgoing, waiting⟩ := List.forall_mem_cons.mp (queue ▸ h.outbox)
  have same : (e.client.record msg).peer = e.client.peer ∧
      (e.client.record msg).peerSwitched = e.client.peerSwitched := by
    cases msg <;> exact ⟨rfl, rfl⟩
  refine ⟨{ h.toSettled with
    outbox := waiting, toRelay := ?_, peer := same.1.trans h.peer,
    peerSwitched := same.2.trans h.peerSwitched }, h.standing⟩
  exact List.forall_mem_append.mpr ⟨h.toRelay, List.forall_mem_singleton.mpr outgoing⟩

theorem Settled.deliver {peer : String} (m : Settled o peer) {frame : Outbound J}
    (passes : Bool) (calm : frame.payload.calm = true) :
    Settled (o.deliver frame passes) peer ∧ (o.deliver frame passes).link.driver = o.link.driver := by
  simp only [Endpoint.deliver]
  split
  · refine ⟨{ m with fromRelay := ?_ }, rfl⟩
    exact List.forall_mem_append.mpr ⟨m.fromRelay, List.forall_mem_singleton.mpr calm⟩
  · exact ⟨m, rfl⟩

theorem Calm.step [DecidableEq J] {l : EndpointLabel J} (h : Calm n e o) (m : Settled o e.id)
    (peaceful : l.peaceful = true) (met : NoReplay e l)
    (taken : Endpoint.step rtc e o l = some (e', o')) :
    Calm n e' o' ∧ Settled o' e'.id ∧ o'.link.driver = o.link.driver := by
  cases l with
  | driver l =>
      obtain ⟨⟨k, out⟩, advanced, same⟩ := Option.map_eq_some_iff.mp taken
      cases same
      exact ⟨h.advance peaceful (Link.advance_cases advanced), m, rfl⟩
  | command cmd =>
      obtain ⟨-, same⟩ := Option.ite_none_right_eq_some.mp taken
      cases same
      refine ⟨⟨{ h.toSettled with commands := ?_ }, h.standing⟩, m, rfl⟩
      exact List.forall_mem_append.mpr ⟨h.commands, List.forall_mem_singleton.mpr peaceful⟩
  | feed =>
      cases queue : e.inbox with
      | nil => simp [Endpoint.step, queue] at taken
      | cons msg rest =>
          simp only [Endpoint.step, queue, Option.some.injEq, Prod.mk.injEq] at taken
          obtain ⟨rfl, rfl⟩ := taken
          refine ⟨⟨{ h.toSettled with commands := ?_, inbox := ?_ }, h.standing⟩, m, rfl⟩
          · have incoming := h.inbox msg (queue ▸ List.mem_cons_self)
            exact List.forall_mem_append.mpr ⟨h.commands, List.forall_mem_singleton.mpr incoming⟩
          · intro msg' member
            exact h.inbox msg' (queue ▸ List.mem_cons_of_mem _ member)
  | takeEvent =>
      cases queue : e.link.events with
      | nil => simp [Endpoint.step, queue] at taken
      | cons ev rest =>
          simp only [Endpoint.step, queue, Option.some.injEq, Prod.mk.injEq] at taken
          obtain ⟨rfl, rfl⟩ := taken
          exact ⟨h.takeEvent queue, m, rfl⟩
  | takeSwitched => simp [Endpoint.step, h.peerSwitched] at taken
  | send =>
      obtain ⟨-, taken⟩ := Option.ite_none_right_eq_some.mp taken
      cases queue : e.outbox with
      | nil => simp [queue] at taken
      | cons msg rest =>
          simp only [queue, RendezvousClient.send_known h.peer, Option.some.injEq, Prod.mk.injEq]
            at taken
          obtain ⟨rfl, rfl⟩ := taken
          exact ⟨h.send queue, m, rfl⟩
  | announce =>
      obtain ⟨frame, announced, same⟩ := Option.map_eq_some_iff.mp taken
      cases same
      obtain ⟨-, announced⟩ := Option.ite_none_right_eq_some.mp announced
      obtain ⟨target, -, rfl⟩ := Option.map_eq_some_iff.mp announced
      refine ⟨⟨{ h.toSettled with toRelay := ?_ }, h.standing⟩, m, rfl⟩
      exact List.forall_mem_append.mpr ⟨h.toRelay, List.forall_mem_singleton.mpr rfl⟩
  | connect =>
      obtain ⟨-, same⟩ := Option.ite_none_right_eq_some.mp taken
      cases same
      exact ⟨⟨{ h.toSettled with }, h.standing⟩, m, rfl⟩
  | drop =>
      obtain ⟨-, same⟩ := Option.ite_none_right_eq_some.mp taken
      cases same
      exact ⟨⟨{ h.toSettled with fromRelay := by simp }, h.standing⟩, m, rfl⟩
  | relay passes =>
      cases queue : e.toRelay with
      | nil => simp [Endpoint.step, queue] at taken
      | cons frame rest =>
          simp only [Endpoint.step, queue, Option.some.injEq, Prod.mk.injEq] at taken
          obtain ⟨rfl, rfl⟩ := taken
          obtain ⟨delivered, same⟩ := m.deliver passes
            (h.toRelay frame (queue ▸ List.mem_cons_self))
          have id : (o.deliver frame passes).id = o.id := by
            simp only [Endpoint.deliver]
            split <;> rfl
          refine ⟨⟨{ h.toSettled with toRelay := ?_, peer := ?_ }, h.standing⟩, delivered, same⟩
          · intro frame' member
            exact h.toRelay frame' (queue ▸ List.mem_cons_of_mem _ member)
          · rw [id]
            exact h.peer
  | receive =>
      obtain ⟨-, taken⟩ := Option.ite_none_right_eq_some.mp taken
      cases queue : e.fromRelay with
      | nil => simp [queue] at taken
      | cons payload rest =>
          simp only [queue, Option.some.injEq, Prod.mk.injEq] at taken
          obtain ⟨rfl, rfl⟩ := taken
          exact ⟨h.receive queue met, m, rfl⟩

end Endpoint

def RendezvousLabel.peaceful : RendezvousLabel J → Bool
  | .host l | .viewer l => l.peaceful

namespace RendezvousPair

/-- Both connections are up, and the viewer's answered the host's current offer. -/
structure Live (s : RendezvousPair J) : Prop where
  hostConnected : s.host.link.driver.connected = true
  viewerConnected : s.viewer.link.driver.connected = true
  offered : s.viewer.link.driver.pc.remoteDescription = s.host.link.driver.pc.localDescription
  answered : s.host.link.driver.pc.remoteDescription = s.viewer.link.driver.pc.localDescription
  host : Standing s.host.link.driver.pc.id s.host.link.driver
  viewer : Standing s.viewer.link.driver.pc.id s.viewer.link.driver

/-- The negotiation that brought the connections up is over. -/
structure Settled (s : RendezvousPair J) : Prop where
  host : s.host.Settled s.viewer.id
  viewer : s.viewer.Settled s.host.id

/-- Nothing happens but to the signaling: no connection is lost, and the application asks
for no other. -/
def SignalingOnly (_ : RendezvousPair J) (l : RendezvousLabel J) : Prop := l.peaceful = true

/-- No client reads an announcement while it has an offer to replay. -/
def NoReplay (s : RendezvousPair J) : RendezvousLabel J → Prop
  | .host l => s.host.NoReplay l
  | .viewer l => s.viewer.NoReplay l

def Unreplayed (s : RendezvousPair J) (l : RendezvousLabel J) : Prop :=
  SignalingOnly s l ∧ NoReplay s l

variable [DecidableEq J] {rtc : Rtc J} {s₀ s : RendezvousPair J}

/-- Whatever the sockets do, both drivers go on with the connections they had, as long as no
offer is replayed. -/
theorem reconnects_harmless (live : Live s₀) (settled : Settled s₀)
    (run : (resumed rtc s₀).ReachableBy Unreplayed s) :
    Standing s₀.host.link.driver.pc.id s.host.link.driver ∧
      Standing s₀.viewer.link.driver.pc.id s.viewer.link.driver := by
  have calm : s.host.Calm s₀.host.link.driver.pc.id s.viewer ∧
      s.viewer.Calm s₀.viewer.link.driver.pc.id s.host := by
    apply run.invariant
    · rintro s rfl
      exact ⟨⟨settled.host, live.host⟩, ⟨settled.viewer, live.viewer⟩⟩
    · rintro s l s' ⟨host, viewer⟩ ⟨peaceful, met⟩ taken
      cases l with
      | host l =>
          obtain ⟨⟨e, o⟩, stepped, rfl⟩ := Option.map_eq_some_iff.mp taken
          obtain ⟨calm, other, same⟩ := host.step viewer.toSettled peaceful met stepped
          exact ⟨calm, other, same ▸ viewer.standing⟩
      | viewer l =>
          obtain ⟨⟨e, o⟩, stepped, rfl⟩ := Option.map_eq_some_iff.mp taken
          obtain ⟨calm, other, same⟩ := viewer.step host.toSettled peaceful met stepped
          exact ⟨⟨other, same ▸ host.standing⟩, calm⟩
  exact ⟨calm.1.standing, calm.2.standing⟩

/-- The library does what is assumed of it. -/
def Library (rtc : Rtc J) (s : RendezvousPair J) : RendezvousLabel J → Prop
  | .host (.driver l) => libAllows rtc s.host.link.driver l
  | .viewer (.driver l) => libAllows rtc s.viewer.link.driver l
  | _ => True

omit [DecidableEq J] in
theorem standing_iff {n : Nat} {d : Driver J} : Standing n d ↔
    d.pc.id = n ∧ d.negotiatedOnce = true ∧ d.rebuild = false ∧ d.phase ≠ .stopped :=
  ⟨fun h => ⟨h.id, h.negotiatedOnce, h.rebuild, h.running⟩, fun ⟨a, b, c, d⟩ => ⟨a, b, c, d⟩⟩

instance (n : Nat) (d : Driver J) : Decidable (Standing n d) :=
  decidable_of_iff _ standing_iff.symm

instance (s : RendezvousPair J) : Decidable (Live s) :=
  decidable_of_iff (s.host.link.driver.connected = true ∧ s.viewer.link.driver.connected = true ∧
      s.viewer.link.driver.pc.remoteDescription = s.host.link.driver.pc.localDescription ∧
      s.host.link.driver.pc.remoteDescription = s.viewer.link.driver.pc.localDescription ∧
      Standing s.host.link.driver.pc.id s.host.link.driver ∧
      Standing s.viewer.link.driver.pc.id s.viewer.link.driver)
    ⟨fun ⟨a, b, c, d, e, f⟩ => ⟨a, b, c, d, e, f⟩, fun ⟨a, b, c, d, e, f⟩ => ⟨a, b, c, d, e, f⟩⟩

instance (e : Endpoint J) (peer : String) : Decidable (e.Settled peer) :=
  decidable_of_iff ((∀ c ∈ e.link.commands, c.calm = true) ∧
      (∀ msg ∈ eventSignals e.link.events, msg.trickles = true) ∧
      (∀ msg ∈ e.outbox, msg.trickles = true) ∧ (∀ msg ∈ e.inbox, msg.trickles = true) ∧
      (∀ frame ∈ e.toRelay, frame.payload.calm = true) ∧
      (∀ payload ∈ e.fromRelay, payload.calm = true) ∧ e.client.peer = some peer ∧
      e.client.peerSwitched = false)
    ⟨fun ⟨a, b, c, d, e, f, g, h⟩ => ⟨a, b, c, d, e, f, g, h⟩,
      fun ⟨a, b, c, d, e, f, g, h⟩ => ⟨a, b, c, d, e, f, g, h⟩⟩

instance (s : RendezvousPair J) : Decidable (Settled s) :=
  decidable_of_iff (s.host.Settled s.viewer.id ∧ s.viewer.Settled s.host.id)
    ⟨fun ⟨a, b⟩ => ⟨a, b⟩, fun ⟨a, b⟩ => ⟨a, b⟩⟩

instance (e : Endpoint J) (l : EndpointLabel J) : Decidable (e.NoReplay l) :=
  match l with
  | .receive => inferInstanceAs (Decidable (e.fromRelay.head? = some .hello →
      e.client.lastOffer = none))
  | .driver _ | .command _ | .feed | .takeEvent | .takeSwitched | .send | .announce | .connect
  | .drop | .relay _ => .isTrue trivial

instance (s : RendezvousPair J) (l : RendezvousLabel J) : Decidable (SignalingOnly s l) :=
  inferInstanceAs (Decidable (l.peaceful = true))

instance (s : RendezvousPair J) (l : RendezvousLabel J) : Decidable (Unreplayed s l) :=
  match l with
  | .host l => inferInstanceAs (Decidable (l.peaceful = true ∧ s.host.NoReplay l))
  | .viewer l => inferInstanceAs (Decidable (l.peaceful = true ∧ s.viewer.NoReplay l))

instance (rtc : Rtc J) (s : RendezvousPair J) (l : RendezvousLabel J) :
    Decidable (Library rtc s l) :=
  match l with
  | .host (.driver l) => inferInstanceAs (Decidable (libAllows rtc s.host.link.driver l))
  | .viewer (.driver l) => inferInstanceAs (Decidable (libAllows rtc s.viewer.link.driver l))
  | .host (.command _) | .host .feed | .host .takeEvent | .host .takeSwitched | .host .send
  | .host .announce | .host .connect | .host .drop | .host (.relay _) | .host .receive
  | .viewer (.command _) | .viewer .feed | .viewer .takeEvent | .viewer .takeSwitched
  | .viewer .send | .viewer .announce | .viewer .connect | .viewer .drop | .viewer (.relay _)
  | .viewer .receive => .isTrue trivial

/-- The viewer announces itself, the offer is answered, and both connections come up. -/
def comesUp : List (RendezvousLabel String) :=
  let offer := "a=fingerprint:sha-256 00"
  let answer := "a=fingerprint:sha-256 AB"
  [.host .connect, .viewer .connect, .viewer .announce, .viewer (.relay true), .host .receive,
    .host .takeEvent, .host .send, .host (.relay true), .viewer .receive, .viewer .feed,
    .viewer (.driver (.command (.signal (.offer offer)) (.applied none))), .viewer .takeEvent,
    .viewer .send, .viewer (.relay true), .host .receive, .host .feed,
    .host (.driver (.command (.signal (.answer answer)) (.applied none))),
    .host (.driver .commandsDone), .host (.driver .established),
    .host (.driver (.event (.connectionStateChange .connected))), .viewer (.driver .commandsDone),
    .viewer (.driver .established), .viewer (.driver (.event (.connectionStateChange .connected)))]

/-- A run that goes on from the state in which both connections are up. -/
theorem exists_resumed (ok : RendezvousPair String → RendezvousLabel String → Prop)
    [∀ s l, Decidable (ok s l)] (labels : List (RendezvousLabel String))
    (P : RendezvousPair String → RendezvousPair String → Prop) [∀ s₀ s, Decidable (P s₀ s)]
    (runs : ((machine sampleRtc).exec (Library sampleRtc) (start sampleRtc "host" "viewer" [] [])
      comesUp).any (fun s₀ => decide (Live s₀ ∧ Settled s₀ ∧
        ((resumed sampleRtc s₀).exec ok s₀ labels).any (fun s => decide (P s₀ s)) = true)) = true) :
    ∃ s₀ s, (machine sampleRtc).ReachableBy (Library sampleRtc) s₀ ∧ Live s₀ ∧ Settled s₀ ∧
      (resumed sampleRtc s₀).ReachableBy ok s ∧ P s₀ s := by
  obtain ⟨s₀, reached, live, settled, goesOn⟩ := Machine.exists_reachableBy (machine sampleRtc)
    (Library sampleRtc) ⟨"host", "viewer", [], [], rfl⟩ comesUp _ runs
  obtain ⟨s, run, holds⟩ := Machine.exists_reachableBy (resumed sampleRtc s₀) ok rfl labels (P s₀)
    goesOn
  exact ⟨s₀, s, reached, live, settled, run, holds⟩

/-- The host's socket drops and comes back, and so does the viewer's, whose announcement is
lost. -/
theorem reconnects_harmless_sockets : ∃ s₀ s : RendezvousPair String,
    (resumed sampleRtc s₀).ReachableBy Unreplayed s ∧
      Standing s₀.host.link.driver.pc.id s.host.link.driver ∧
      Standing s₀.viewer.link.driver.pc.id s.viewer.link.driver := by
  obtain ⟨s₀, s, -, live, settled, run, -⟩ := exists_resumed Unreplayed
    [.host .drop, .viewer .drop, .viewer .connect, .viewer .announce, .viewer (.relay true),
      .host .connect] (fun _ s => s.host.client.online = true ∧ s.viewer.client.online = true)
    (by decide)
  exact ⟨s₀, s, run, reconnects_harmless live settled run⟩

/-- The viewer's socket drops and comes back; the host replays its offer, and the viewer
leaves the live connection for it. -/
theorem reconnect_ends_session : ∃ s₀ s : RendezvousPair String,
    (machine sampleRtc).ReachableBy (Library sampleRtc) s₀ ∧ Live s₀ ∧ Settled s₀ ∧
      (resumed sampleRtc s₀).ReachableBy (fun s l => SignalingOnly s l ∧ Library sampleRtc s l) s ∧
      s₀.viewer.link.driver.pc.id = 0 ∧ s.viewer.link.driver.pc.id = 1 ∧
      s.viewer.link.driver.connected = false :=
  exists_resumed _
    [.viewer .drop, .viewer .connect, .viewer .announce, .viewer (.relay true), .host .receive,
      .host (.relay true), .viewer .receive, .viewer .feed,
      .viewer (.driver (.eventsDone none .rejected)), .viewer (.driver .readsDone),
      .viewer (.driver (.command (.signal (.offer "a=fingerprint:sha-256 00")) .rejected)),
      .viewer (.driver .commandsDone), .viewer (.driver (.eventsDone (some []) (.applied none)))]
    (fun s₀ s => s₀.viewer.link.driver.pc.id = 0 ∧ s.viewer.link.driver.pc.id = 1 ∧
      s.viewer.link.driver.connected = false) (by decide)

end RendezvousPair
end ReachMyDevice
