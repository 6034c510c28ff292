import ReachMyDevice.Lib.Machine
import ReachMyDevice.ChannelBinding

/-!
# A host session and its driver

The session hands signaling and its own messages to the driver and takes the
events the driver has queued. Every message it handles is recorded.
-/
namespace ReachMyDevice
open Machines

/-- A message as it was handled: where it came from and what the session knew then. -/
structure Handled (J D H : Type) where
  pc : Pc J
  bytes : Wire
  readings : Readings
  session : HostSession D H
  lastHello : Option (Nat × Bool)

/-- `lastHello` is the connection that delivered the most recent `Hello`, and the verdict. -/
structure HostLink (J D H : Type) where
  link : Link J
  session : HostSession D H
  lastHello : Option (Nat × Bool)
  handled : List (Handled J D H)

inductive HostLabel (J : Type)
  /-- The relay delivers a signaling message. -/
  | signal (msg : SignalMsg J)
  | peerSwitched
  | geometryChanged (rect : Option MonitorRect) (built : NewInjector)
  /-- Another thread queues a frame or a message. -/
  | video (frame : VideoFrame)
  | send (env : Envelope)
  | driver (l : DriverLabel J)
  | handle (r : Readings)

def effectCommand {J : Type} : HostEffect → Option (DriverCmd J)
  | .sendData env => some (.data (encode env))
  | _ => none

namespace HostLink
variable {J D H : Type}

def start (rtc : Rtc J) (gathered : List String) (injector : Option Injector)
    (downloadDir : String) (disk : D) : HostLink J D H where
  link := .start rtc true gathered
  session := .new injector downloadDir disk
  lastHello := none
  handled := []

/-- What is recorded of an event: `after` is the session once it is handled. -/
def record (s : HostLink J D H) (pc : Pc J) (r : Readings) (after : HostSession D H) :
    TransportEvent J → HostLink J D H
  | .data bytes =>
    { s with
      lastHello := if (HostSession.hello? bytes).isSome then some (pc.id, after.authorized)
        else s.lastHello
      handled := s.handled ++ [⟨pc, bytes, r, s.session, s.lastHello⟩] }
  | _ => s

def receive (rtc : Rtc J) (s : HostLink J D H) (msg : SignalMsg J) : HostLink J D H :=
  { s with session := s.session.onSignal rtc.sdp msg, link := s.link.post [.signal msg] }

/-- The event at the head of the queue is handled, `rest` follows it. -/
def take (env : HostEnv D H) (rtc : Rtc J) (s : HostLink J D H) (r : Readings) (pc : Pc J)
    (ev : TransportEvent J) (rest : List (Pc J × TransportEvent J)) : HostLink J D H :=
  let after := s.session.onEvent env rtc.sdp r ev
  { s.record pc r after.1 ev with
    session := after.1
    link := Link.post { s.link with events := rest } (after.2.filterMap effectCommand) }

def step [DecidableEq J] (env : HostEnv D H) (rtc : Rtc J) (s : HostLink J D H) :
    HostLabel J → Option (HostLink J D H)
  | .signal msg => some (s.receive rtc msg)
  | .peerSwitched => some { s with link := s.link.post [.iceRestart] }
  | .geometryChanged rect built =>
    some { s with session := s.session.onGeometryChanged rect built }
  | .video frame => some { s with link := s.link.post [.video frame] }
  | .send e => some { s with link := s.link.post [.data (encode e)] }
  | .driver l => (s.link.drive rtc l).map fun k => { s with link := k.1 }
  | .handle r =>
    match s.link.events with
    | [] => none
    | (pc, ev) :: rest => some (s.take env rtc r pc ev rest)

def machine [DecidableEq J] (env : HostEnv D H) (rtc : Rtc J) : Machine (HostLink J D H) (HostLabel J) where
  init s := ∃ gathered injector downloadDir disk, s = start rtc gathered injector downloadDir disk
  step := step env rtc

end HostLink

namespace Handled
variable {J D H : Type}

def after (env : HostEnv D H) (m : Handled J D H) : HostSession D H × List HostEffect :=
  m.session.handleControl env m.readings m.bytes

/-- Anything happens on the message at all. -/
def Acts (env : HostEnv D H) (m : Handled J D H) : Prop := m.after env ≠ (m.session, [])

/-- The message is a `Hello`, and it is accepted. -/
def Authorizes (env : HostEnv D H) (m : Handled J D H) (hello : Hello) : Prop :=
  (HostSession.hello? m.bytes).map Prod.snd = some hello ∧ (m.after env).1.authorized = true

instance (env : HostEnv D H) (m : Handled J D H) (hello : Hello) :
    Decidable (m.Authorizes env hello) := inferInstanceAs (Decidable (_ ∧ _))

end Handled

/-! ## Authorization is per connection -/

namespace HostLink
variable {J D H : Type}

/-- The most recent `Hello` is that of the event, if it carries one. -/
theorem take_lastHello {env : HostEnv D H} {rtc : Rtc J} (s : HostLink J D H) (r : Readings)
    (pc : Pc J) (ev : TransportEvent J) (rest : List (Pc J × TransportEvent J)) :
    (s.take env rtc r pc ev rest).lastHello =
      ((s.session.eventVerdict env r ev).map (pc.id, ·)).or s.lastHello := by
  cases ev with
  | data bytes =>
      simp only [take, record, HostSession.onEvent, HostSession.onData_authorized,
        HostSession.handleControl_authorized, HostSession.eventVerdict, HostSession.verdict]
      cases HostSession.hello? bytes <;> rfl
  | _ => rfl

/-- `cur` is the connection whose `Connected` was handled last. -/
structure Bound (env : HostEnv D H) (s : HostLink J D H) (cur : Option Nat) : Prop where
  feeding : s.link.Feeding cur
  authorized : s.session.authorized = true → ∃ p, cur = some p ∧ s.lastHello = some (p, true)
  acted : ∀ m ∈ s.handled, HostSession.hello? m.bytes = none → m.Acts env →
    m.lastHello = some (m.pc.id, true)

theorem Bound.handle [DecidableEq J] {env : HostEnv D H} {rtc : Rtc J} {s s' : HostLink J D H}
    {cur : Option Nat} {r : Readings} (h : Bound env s cur) (taken : HostLink.step env rtc s (.handle r) = some s') :
    ∃ cur', Bound env s' cur' := by
  simp only [HostLink.step] at taken
  split at taken
  · cases taken
  · rename_i pc ev rest queue
    cases taken
    obtain ⟨item, feeding⟩ := h.feeding.next queue
    cases ev with
    | connected => exact ⟨some pc.id, feeding.post _, fun set => Bool.noConfusion set, h.acted⟩
    | disconnected =>
        refine ⟨cur, feeding.post _, fun set => ?_, h.acted⟩
        have cleared := (HostSession.onDisconnected_cleared s.session r).1
        exact Bool.noConfusion (cleared.symm.trans set)
    | localSignal msg => exact ⟨cur, feeding.post _, h.authorized, h.acted⟩
    | video annexb tsHint => exact ⟨cur, feeding.post _, h.authorized, h.acted⟩
    | keyframeRequested => exact ⟨cur, feeding.post _, h.authorized, h.acted⟩
    | data bytes =>
        have here : cur = some pc.id := item rfl
        refine ⟨cur, feeding.post _, fun set => ?_, fun m member other acts => ?_⟩
        · rw [take_lastHello]
          have flag := HostSession.onEvent_authorized _ set
          cases heard : s.session.eventVerdict env r (.data (J := J) bytes) with
          | none =>
              rw [heard] at flag
              exact h.authorized flag
          | some v =>
              rw [heard] at flag
              exact ⟨pc.id, here, congrArg (fun v => some (pc.id, v)) flag⟩
        · rcases List.mem_append.mp member with old | new
          · exact h.acted m old other acts
          · cases List.mem_singleton.mp new
            rcases HostSession.handleControl_other env s.session r other with same | ⟨was, -⟩
            · exact absurd same acts
            · obtain ⟨p, cur', last⟩ := h.authorized was
              rw [here] at cur'
              cases cur'
              exact last

theorem Bound.step [DecidableEq J] {env : HostEnv D H} {rtc : Rtc J} {s s' : HostLink J D H}
    {cur : Option Nat} {l : HostLabel J} (h : Bound env s cur) (taken : HostLink.step env rtc s l = some s') :
    ∃ cur', Bound env s' cur' := by
  cases l with
  | handle r => exact h.handle taken
  | driver l =>
      simp only [HostLink.step, Option.map_eq_some_iff] at taken
      obtain ⟨⟨k, out⟩, driven, rfl⟩ := taken
      exact ⟨cur, h.feeding.driven (Link.drive_cases driven), h.authorized, h.acted⟩
  | signal msg =>
      cases taken
      exact ⟨cur, h.feeding.post _, h.authorized, h.acted⟩
  | peerSwitched =>
      cases taken
      exact ⟨cur, h.feeding.post _, h.authorized, h.acted⟩
  | geometryChanged rect built =>
      cases taken
      exact ⟨cur, h.feeding, h.authorized, h.acted⟩
  | video frame =>
      cases taken
      exact ⟨cur, h.feeding.post _, h.authorized, h.acted⟩
  | send e =>
      cases taken
      exact ⟨cur, h.feeding.post _, h.authorized, h.acted⟩

theorem start_bound (env : HostEnv D H) (rtc : Rtc J) (gathered : List String)
    (injector : Option Injector) (downloadDir : String) (disk : D) :
    Bound env (start rtc gathered injector downloadDir disk) none :=
  ⟨Link.Feeding.start rtc true gathered, fun set => Bool.noConfusion set, fun _ member => nomatch member⟩

/-- A message other than a `Hello` is acted on only when the connection that delivered it
also delivered the most recent `Hello`, and that `Hello` was accepted. -/
theorem acts_on_own_hello [DecidableEq J] {env : HostEnv D H} {rtc : Rtc J} {s : HostLink J D H}
    (run : (machine env rtc).Reachable s) {m : Handled J D H} (handled : m ∈ s.handled)
    (other : HostSession.hello? m.bytes = none) (acts : m.Acts env) :
    m.lastHello = some (m.pc.id, true) := by
  have bound : ∃ cur, Bound env s cur := by
    refine Machine.Reachable.invariant (I := fun s => ∃ cur, Bound env s cur) ?_ ?_ run
    · rintro s ⟨gathered, injector, downloadDir, disk, rfl⟩
      exact ⟨none, start_bound env rtc gathered injector downloadDir disk⟩
    · rintro s l s' ⟨cur, h⟩ taken
      exact h.step taken
  obtain ⟨cur, h⟩ := bound
  exact h.acted m handled other acts

/-- A viewer with the answer `text` connects and sends some messages. -/
def viewerSends (text : String) (msgs : List Wire) : List (HostLabel String) :=
  [.signal (.answer text), .driver (.command (.signal (.answer text)) (.applied none)),
   .driver .commandsDone, .driver .established, .driver (.event (.connectionStateChange .connected)),
   .driver (.eventsDone none .rejected)] ++
  msgs.map (fun bytes => .driver (.read (.dataChannelMessage bytes)))

theorem acts_on_own_hello_ping : ∃ (s : HostLink String Unit Unit) (m : Handled String Unit Unit),
    m ∈ s.handled ∧ m.Acts sampleEnv ∧ m.lastHello = some (m.pc.id, true) := by
  obtain ⟨s, run, m, handled, other, sends⟩ := Machine.exists_reachableBy
    (machine (D := Unit) (H := Unit) sampleEnv sampleRtc) Machine.Always ⟨[], none, "", (), rfl⟩
    (viewerSends "a=fingerprint:sha-256 AB"
      [sampleHello "SHA-256 AB" "taco", encode (envelope (.ping 5))] ++
      List.replicate 4 (.handle .sample))
    (fun s => ∃ m ∈ s.handled, HostSession.hello? m.bytes = none ∧ (m.after sampleEnv).2 ≠ [])
    (by decide)
  have acts : m.Acts sampleEnv := fun nothing => sends (congrArg Prod.snd nothing)
  exact ⟨s, m, handled, acts, acts_on_own_hello run handled other acts⟩

/-! ## The fingerprint a proof is bound to -/

/-- An answer is received only when no other peer's messages can still be handled. -/
def OneAnswerInFlight (rtc : Rtc J) (s : HostLink J D H) : HostLabel J → Prop
  | .signal msg => s.link.OnePeer rtc msg
  | _ => True

/-- Every message was delivered by the peer whose fingerprint the session then held. -/
structure OwnPeer (rtc : Rtc J) (s : HostLink J D H) : Prop where
  host : s.link.driver.isHost = true
  latched : s.link.Latched rtc s.session.remoteFingerprint
  bound : ∀ m ∈ s.handled, ∃ fp, Driver.peerFingerprint rtc m.pc = some fp ∧
    m.session.remoteFingerprint = some fp

theorem OwnPeer.post {rtc : Rtc J} {s : HostLink J D H} (h : OwnPeer rtc s) {cmd : DriverCmd J}
    (other : ∀ msg, cmd ≠ .signal msg) : OwnPeer rtc { s with link := s.link.post [cmd] } :=
  ⟨h.host, h.latched.post fun _ posted => List.mem_singleton.mp posted ▸ other, h.bound⟩

theorem OwnPeer.take {env : HostEnv D H} {rtc : Rtc J} {s : HostLink J D H} {r : Readings}
    {pc : Pc J} {ev : TransportEvent J} {rest : List (Pc J × TransportEvent J)}
    (h : OwnPeer rtc s) (queue : s.link.events = (pc, ev) :: rest) :
    OwnPeer rtc (s.take env rtc r pc ev rest) := by
  have latch := HostSession.onEvent_remoteFingerprint env rtc.sdp s.session r ev
  refine ⟨h.host, ?_, ?_⟩
  · simp only [HostLink.take, latch]
    refine (h.latched.next queue).post fun c posted msg same => ?_
    obtain ⟨effect, -, sent⟩ := List.mem_filterMap.mp posted
    rw [same] at sent
    cases effect <;> cases sent
  · cases ev with
    | data bytes =>
        intro m member
        rcases List.mem_append.mp member with old | new
        · exact h.bound m old
        · cases List.mem_singleton.mp new
          exact h.latched.peer (queue ▸ List.mem_cons_self)
    | _ => exact h.bound

theorem OwnPeer.step [DecidableEq J] {env : HostEnv D H} {rtc : Rtc J} {s s' : HostLink J D H}
    {l : HostLabel J} (h : OwnPeer rtc s) (met : OneAnswerInFlight rtc s l)
    (taken : HostLink.step env rtc s l = some s') : OwnPeer rtc s' := by
  cases l with
  | signal msg =>
      cases taken
      have latched := h.latched.receive met
      rw [h.host, Link.broughtFingerprint_host] at latched
      exact ⟨h.host, latched, h.bound⟩
  | peerSwitched =>
      cases taken
      exact h.post nofun
  | video frame =>
      cases taken
      exact h.post nofun
  | send e =>
      cases taken
      exact h.post nofun
  | geometryChanged rect built =>
      cases taken
      exact ⟨h.host, h.latched, h.bound⟩
  | driver l =>
      simp only [HostLink.step, Option.map_eq_some_iff] at taken
      obtain ⟨⟨k, out⟩, driven, rfl⟩ := taken
      have driven := Link.drive_cases driven
      exact ⟨(Driver.step_isHost driven.step).trans h.host, h.latched.driven driven, h.bound⟩
  | handle r =>
      simp only [HostLink.step] at taken
      split at taken
      · cases taken
      · rename_i queue
        cases taken
        exact h.take queue

/-- In every run in which an answer is received only when no other peer can still be heard,
an accepted `Hello` was delivered by the very peer its access proof is bound to. -/
theorem authorizes_bound [DecidableEq J] {env : HostEnv D H} {rtc : Rtc J} {s : HostLink J D H}
    (run : (machine env rtc).ReachableBy (OneAnswerInFlight rtc) s)
    (required : env.cfg.requireAuthorization = true) {m : Handled J D H} {hello : Hello}
    (handled : m ∈ s.handled) (authorizes : m.Authorizes env hello) :
    ∃ fp, Driver.peerFingerprint rtc m.pc = some fp ∧ m.session.remoteFingerprint = some fp ∧
      ∃ id ∈ env.cfg.authorizedDeviceIds,
        verifyAccessProof env.crypto hello.publicKey hello.signature (utf8 fp) = .ok id := by
  have own : OwnPeer rtc s := by
    refine run.invariant ?_ ?_
    · rintro s ⟨gathered, injector, downloadDir, disk, rfl⟩
      exact ⟨rfl, .start rtc true gathered, fun _ member => nomatch member⟩
    · intro s l s' h met taken
      exact h.step met taken
  obtain ⟨fp, peer, binding⟩ := own.bound m handled
  obtain ⟨carried, accepted⟩ := authorizes
  obtain ⟨⟨major, h⟩, found, rfl⟩ := Option.map_eq_some_iff.mp carried
  rw [Handled.after, HostSession.handleControl_hello env _ _ found] at accepted
  have passes := (HostSession.handleHello_authorized ..).mp accepted
  obtain ⟨id, allowed, proved⟩ := HostSession.helloPasses_proof required passes
  rw [binding] at proved
  exact ⟨fp, peer, binding, id, allowed, proved⟩

instance (rtc : Rtc J) (s : HostLink J D H) (l : HostLabel J) :
    Decidable (OneAnswerInFlight rtc s l) := by
  cases l <;> simp only [OneAnswerInFlight] <;> infer_instance

theorem authorizes_bound_viewer : ∃ (m : Handled String Unit Unit) (hello : Hello),
    m.Authorizes sampleEnv hello ∧ ∃ fp, Driver.peerFingerprint sampleRtc m.pc = some fp ∧
      m.session.remoteFingerprint = some fp ∧
      ∃ id ∈ sampleEnv.cfg.authorizedDeviceIds,
        verifyAccessProof sampleCrypto hello.publicKey hello.signature (utf8 fp) = .ok id := by
  obtain ⟨s, run, m, handled, accepted⟩ := Machine.exists_reachableBy
    (machine (D := Unit) (H := Unit) sampleEnv sampleRtc) (OneAnswerInFlight sampleRtc)
    ⟨[], none, "", (), rfl⟩
    (viewerSends "a=fingerprint:sha-256 AB" [sampleHello "SHA-256 AB" "taco"] ++
      List.replicate 3 (.handle .sample))
    (fun s => ∃ m ∈ s.handled, ∃ h ∈ HostSession.hello? m.bytes, m.Authorizes sampleEnv h.2)
    (by decide)
  obtain ⟨h, -, authorizes⟩ := accepted
  exact ⟨m, h.2, authorizes, authorizes_bound run rfl handled authorizes⟩

/-- An answer of another device is received while a `Hello` is queued: the proof over the
newcomer's fingerprint is accepted from the connection of the earlier peer. -/
theorem second_answer_rebinds : ∃ s : HostLink String Unit Unit,
    (machine sampleEnv sampleRtc).Reachable s ∧ sampleEnv.cfg.requireAuthorization = true ∧
      ∃ m ∈ s.handled, (∃ h ∈ HostSession.hello? m.bytes, m.Authorizes sampleEnv h.2) ∧
        m.session.authorized = false ∧
        Driver.peerFingerprint sampleRtc m.pc = some "SHA-256 AB" ∧
        m.session.remoteFingerprint = some "SHA-256 CD" := by
  obtain ⟨s, run, found⟩ := Machine.exists_reachableBy
    (machine (D := Unit) (H := Unit) sampleEnv sampleRtc) Machine.Always ⟨[], none, "", (), rfl⟩
    (viewerSends "a=fingerprint:sha-256 AB" [sampleHello "SHA-256 CD" "taco"] ++
      .signal (.answer "a=fingerprint:sha-256 CD") :: List.replicate 3 (.handle .sample))
    (fun s => ∃ m ∈ s.handled, (∃ h ∈ HostSession.hello? m.bytes, m.Authorizes sampleEnv h.2) ∧
      m.session.authorized = false ∧
      Driver.peerFingerprint sampleRtc m.pc = some "SHA-256 AB" ∧
      m.session.remoteFingerprint = some "SHA-256 CD") (by decide)
  exact ⟨s, run, rfl, found⟩

end HostLink
end ReachMyDevice
