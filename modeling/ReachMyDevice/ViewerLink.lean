import ReachMyDevice.Lib.Machine
import ReachMyDevice.ViewerSession

/-!
# A viewer session and its driver

The viewer authenticates the host by a proof in the `HelloAck`, and reports the
proved key to the application.
-/
namespace ReachMyDevice
open Machines

/-- A message of the host as it was handled. -/
structure Heard (J D H : Type) where
  pc : Pc J
  bytes : Wire
  now : Nat
  session : ViewerSession D H

def Heard.effects {J D H : Type} (env : ViewerEnv D H) (m : Heard J D H) : List ViewerEffect :=
  (m.session.handleData env m.now m.bytes).2

structure ViewerLink (J D H : Type) where
  link : Link J
  session : ViewerSession D H
  heard : List (Heard J D H)

inductive ViewerLabel (J : Type)
  | signal (msg : SignalMsg J)
  | submitPassword (pw : String)
  /-- Another thread queues a message. -/
  | send (env : Envelope)
  | driver (l : DriverLabel J)
  | handle (now : Nat)

namespace ViewerLink
variable {J D H : Type}

def effectCommand : ViewerEffect → Option (DriverCmd J)
  | .sendData env => some (.data (encode env))
  | _ => none

def start (rtc : Rtc J) (gathered : List String) (downloadDir : String) (disk : D) :
    ViewerLink J D H where
  link := .start rtc false gathered
  session := .new downloadDir disk
  heard := []

def receive (rtc : Rtc J) (s : ViewerLink J D H) (msg : SignalMsg J) : ViewerLink J D H :=
  { s with session := s.session.onSignal rtc.sdp msg, link := s.link.post [.signal msg] }

def record (s : ViewerLink J D H) (pc : Pc J) (now : Nat) : TransportEvent J → List (Heard J D H)
  | .data bytes => s.heard ++ [⟨pc, bytes, now, s.session⟩]
  | _ => s.heard

/-- The event at the head of the queue is handled, `rest` follows it. -/
def take (env : ViewerEnv D H) (rtc : Rtc J) (s : ViewerLink J D H) (now : Nat) (pc : Pc J)
    (ev : TransportEvent J) (rest : List (Pc J × TransportEvent J)) : ViewerLink J D H :=
  let after := s.session.onEvent env rtc.sdp now ev
  { link := Link.post { s.link with events := rest } (after.2.filterMap effectCommand)
    session := after.1
    heard := s.record pc now ev }

def step [DecidableEq J] (env : ViewerEnv D H) (rtc : Rtc J) (s : ViewerLink J D H) :
    ViewerLabel J → Option (ViewerLink J D H)
  | .signal msg => some (s.receive rtc msg)
  | .submitPassword pw =>
    some { s with link := s.link.post ((s.session.onPassword env pw).filterMap effectCommand) }
  | .send e => some { s with link := s.link.post [.data (encode e)] }
  | .driver l => (s.link.drive rtc l).map fun k => { s with link := k.1 }
  | .handle now =>
    match s.link.events with
    | [] => none
    | (pc, ev) :: rest => some (s.take env rtc now pc ev rest)

def machine [DecidableEq J] (env : ViewerEnv D H) (rtc : Rtc J) :
    Machine (ViewerLink J D H) (ViewerLabel J) where
  init s := ∃ gathered downloadDir disk, s = start rtc gathered downloadDir disk
  step := step env rtc

/-- An offer is received only when no other host's messages can still be handled. -/
def OneOfferInFlight (rtc : Rtc J) (s : ViewerLink J D H) : ViewerLabel J → Prop
  | .signal msg => s.link.OnePeer rtc msg
  | _ => True

instance (rtc : Rtc J) (s : ViewerLink J D H) (l : ViewerLabel J) :
    Decidable (OneOfferInFlight rtc s l) := by
  cases l <;> simp only [OneOfferInFlight] <;> infer_instance

/-- Every message was delivered by the host whose fingerprint the session then held. -/
structure OwnHost (rtc : Rtc J) (s : ViewerLink J D H) : Prop where
  viewer : s.link.driver.isHost = false
  latched : s.link.Latched rtc s.session.hostFingerprint
  bound : ∀ m ∈ s.heard, ∃ fp, Driver.peerFingerprint rtc m.pc = some fp ∧
    m.session.hostFingerprint = some fp

theorem effectCommand_other {effects : List ViewerEffect} {c : DriverCmd J}
    (posted : c ∈ effects.filterMap effectCommand) (msg : SignalMsg J) : c ≠ .signal msg := by
  rintro rfl
  obtain ⟨effect, -, sent⟩ := List.mem_filterMap.mp posted
  cases effect <;> cases sent

theorem OwnHost.take {env : ViewerEnv D H} {rtc : Rtc J} {s : ViewerLink J D H} {now : Nat}
    {pc : Pc J} {ev : TransportEvent J} {rest : List (Pc J × TransportEvent J)}
    (h : OwnHost rtc s) (queue : s.link.events = (pc, ev) :: rest) :
    OwnHost rtc (s.take env rtc now pc ev rest) := by
  have latch := ViewerSession.onEvent_hostFingerprint env rtc.sdp s.session now ev
  refine ⟨h.viewer, ?_, ?_⟩
  · simp only [ViewerLink.take, latch]
    exact (h.latched.next queue).post fun _ posted => effectCommand_other posted
  · cases ev with
    | data bytes =>
        intro m member
        rcases List.mem_append.mp member with old | new
        · exact h.bound m old
        · cases List.mem_singleton.mp new
          exact h.latched.peer (queue ▸ List.mem_cons_self)
    | _ => exact h.bound

theorem OwnHost.step [DecidableEq J] {env : ViewerEnv D H} {rtc : Rtc J} {s s' : ViewerLink J D H}
    {l : ViewerLabel J} (h : OwnHost rtc s) (met : OneOfferInFlight rtc s l)
    (taken : ViewerLink.step env rtc s l = some s') : OwnHost rtc s' := by
  cases l with
  | signal msg =>
      cases taken
      have latched := h.latched.receive met
      rw [h.viewer, Link.broughtFingerprint_viewer] at latched
      exact ⟨h.viewer, latched, h.bound⟩
  | submitPassword pw =>
      cases taken
      exact ⟨h.viewer, h.latched.post fun _ posted => effectCommand_other posted, h.bound⟩
  | send e =>
      cases taken
      exact ⟨h.viewer, h.latched.post fun _ posted => List.mem_singleton.mp posted ▸ nofun, h.bound⟩
  | driver l =>
      simp only [ViewerLink.step, Option.map_eq_some_iff] at taken
      obtain ⟨⟨k, out⟩, driven, rfl⟩ := taken
      have driven := Link.drive_cases driven
      exact ⟨(Driver.step_isHost driven.step).trans h.viewer, h.latched.driven driven, h.bound⟩
  | handle now =>
      simp only [ViewerLink.step] at taken
      split at taken
      · cases taken
      · rename_i queue
        cases taken
        exact h.take queue

/-- In every run in which an offer is received only when no other host can still be heard,
the proof of a key reported as verified was made over the certificate fingerprint of the
association that delivered it. `signed` holds of the signatures a key's holder made. -/
theorem verified_host_bound [DecidableEq J] {env : ViewerEnv D H} {rtc : Rtc J}
    {s : ViewerLink J D H} {signed : (key msg sig : Bytes) → Prop}
    (unforgeable : ∀ key msg sig, env.crypto.verify key msg sig = .ok () → signed key msg sig)
    (run : (machine env rtc).ReachableBy (OneOfferInFlight rtc) s) {m : Heard J D H}
    (heard : m ∈ s.heard) {key : Bytes} {id : String}
    (reported : .update (.hostIdentity key id true) ∈ m.effects env) :
    ∃ ack fp, ViewerSession.helloAck? m.bytes = some ack ∧ ack.hostPublicKey = key ∧
      Driver.peerFingerprint rtc m.pc = some fp ∧
      signed key (accessProofMessage key (utf8 fp)) ack.hostProof := by
  have own : OwnHost rtc s := by
    refine run.invariant ?_ ?_
    · rintro s ⟨gathered, downloadDir, disk, rfl⟩
      exact ⟨rfl, .start rtc false gathered, fun _ member => nomatch member⟩
    · intro s l s' h met taken
      exact h.step met taken
  obtain ⟨fp, peer, binding⟩ := own.bound m heard
  obtain ⟨ack, carried, same, verified⟩ := ViewerSession.handleData_verified reported
  rw [binding] at verified
  exact ⟨ack, fp, carried, same, peer, unforgeable _ _ _ (verifyAccessProof_ok verified).1⟩

/-- The viewer answers the offer `text`, connects and is sent a message. -/
def hostSends (text : String) (bytes : Wire) : List (ViewerLabel String) :=
  [.signal (.offer text), .driver (.command (.signal (.offer text)) (.applied none)),
   .driver .commandsDone, .driver .established, .driver (.event (.connectionStateChange .connected)),
   .driver (.eventsDone none .rejected), .driver (.read (.dataChannelMessage bytes))]

def ReportsSample (m : Heard String Unit Unit) : Prop :=
  .update (.hostIdentity (List.replicate 32 9) (sampleDeviceId 9) true) ∈ m.effects sampleViewerEnv

instance (m : Heard String Unit Unit) : Decidable (ReportsSample m) :=
  inferInstanceAs (Decidable (_ ∈ _))

theorem sampleCrypto_unforgeable (key msg sig : Bytes)
    (verified : sampleCrypto.verify key msg sig = .ok ()) : sig = sampleSign msg := by
  simp only [sampleCrypto] at verified
  split at verified
  · assumption
  · cases verified

theorem verified_host_bound_viewer : ∃ (m : Heard String Unit Unit) (ack : HelloAck) (fp : String),
    ReportsSample m ∧ ViewerSession.helloAck? m.bytes = some ack ∧
      Driver.peerFingerprint sampleRtc m.pc = some fp ∧
      ack.hostProof = sampleSign (accessProofMessage (List.replicate 32 9) (utf8 fp)) := by
  obtain ⟨s, run, m, heard, reported⟩ := Machine.exists_reachableBy
    (machine (D := Unit) (H := Unit) sampleViewerEnv sampleRtc) (OneOfferInFlight sampleRtc)
    ⟨[], "", (), rfl⟩
    (hostSends "a=fingerprint:sha-256 00" (sampleAck "SHA-256 00") ++ List.replicate 3 (.handle 0))
    (fun s => ∃ m ∈ s.heard, ReportsSample m) (by decide)
  obtain ⟨ack, fp, carried, -, peer, proof⟩ := verified_host_bound sampleCrypto_unforgeable run heard reported
  exact ⟨m, ack, fp, reported, carried, peer, proof⟩

/-- The relay has the viewer connect to itself, passes on the acknowledgement of the real
host, and delivers the real host's offer before the acknowledgement is handled. -/
theorem replayed_offer_rebinds : ∃ s : ViewerLink String Unit Unit,
    (machine sampleViewerEnv sampleRtc).Reachable s ∧ ∃ m ∈ s.heard, ReportsSample m ∧
      Driver.peerFingerprint sampleRtc m.pc = some "SHA-256 EE" ∧
      ∃ ack ∈ ViewerSession.helloAck? m.bytes, ack.hostProof ≠
        sampleSign (accessProofMessage (List.replicate 32 9) (utf8 "SHA-256 EE")) :=
  Machine.exists_reachableBy
    (machine (D := Unit) (H := Unit) sampleViewerEnv sampleRtc) _ ⟨[], "", (), rfl⟩
    (hostSends "a=fingerprint:sha-256 EE" (sampleAck "SHA-256 00") ++
      .signal (.offer "a=fingerprint:sha-256 00") :: List.replicate 3 (.handle 0)) _ (by decide)

end ViewerLink
end ReachMyDevice
