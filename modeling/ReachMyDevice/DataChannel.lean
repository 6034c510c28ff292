import ReachMyDevice.Lib.Unwinding
import ReachMyDevice.Clipboard
import ReachMyDevice.HostSession

/-!
# Everything a host sends on the data channel

The session loop, the clipboard thread and the audio thread send through handles of
one transport.
-/
namespace ReachMyDevice
open Unwinding

variable {J D H : Type}

/-- The audio callback checks the flag, then sends: `pending` is a packet in between. -/
structure AudioPump where
  pending : Option Bytes
  seq : Nat
  deriving DecidableEq, Repr

structure HostThreads (D H : Type) where
  session : HostSession D H
  clipboard : ClipboardSync
  audio : AudioPump

/-- A message as it is handed to the transport, which drops it while no channel is open, with the
flag at that moment. -/
structure Sent where
  authorized : Bool
  env : Envelope
  deriving DecidableEq, Repr

inductive ThreadLabel (J : Type)
  | turn (i : HostSession.Input J)
  | clipboardApply (setText : Bool)
  | clipboardPoll (text : Option String)
  | audioPacket (opus : Bytes)
  | audioSend

def sentData (effects : List HostEffect) : List Envelope :=
  effects.filterMap fun
    | .sendData env => some env
    | _ => none

def remoteUpdates (effects : List HostEffect) : List ClipboardUpdate :=
  effects.filterMap fun
    | .applyRemote u => some u
    | _ => none

namespace HostThreads

/-- The flag is set before the messages of a turn are sent. -/
def step (env : HostEnv D H) (sdp : J → Option String) (s : HostThreads D H) :
    ThreadLabel J → HostThreads D H × List Sent
  | .turn i =>
    let r := s.session.turn env sdp i
    ({ s with
        session := r.1
        clipboard := (remoteUpdates r.2).foldl ClipboardSync.applyRemote s.clipboard },
      (sentData r.2).map (Sent.mk r.1.authorized))
  | .clipboardApply setText => ({ s with clipboard := s.clipboard.applyNext setText }, [])
  | .clipboardPoll text =>
    ({ s with clipboard := (s.clipboard.poll text).1 },
      (s.clipboard.poll text).2.map (Sent.mk s.session.authorized))
  | .audioPacket opus =>
    if s.audio.pending.isNone && s.session.authorized then
      ({ s with audio := { s.audio with pending := some opus } }, [])
    else (s, [])
  | .audioSend =>
    match s.audio.pending with
    | none => (s, [])
    | some opus =>
      ({ s with audio := { pending := none, seq := s.audio.seq + 1 } },
        [⟨s.session.authorized, audioFrame opus s.audio.seq⟩])

/-- Alike but for clipboard, audio and files. -/
def Alike (s t : HostThreads D H) : Prop :=
  ∃ files disk, t.session = { s.session with files, disk }

/-- The same turn, but for the list of displays, or a step of the same thread. -/
inductive SameSchedule : ThreadLabel J → ThreadLabel J → Prop
  | signal (msg : SignalMsg J) : SameSchedule (.turn (.signal msg)) (.turn (.signal msg))
  | geometry (rect : Option MonitorRect) (built : NewInjector) :
    SameSchedule (.turn (.geometryChanged rect built)) (.turn (.geometryChanged rect built))
  | event (ev : TransportEvent J) (r : Readings) (displays : List DisplayDescriptor) :
    SameSchedule (.turn (.event ev r)) (.turn (.event ev { r with displays }))
  | clipboardApply (a b : Bool) : SameSchedule (.clipboardApply a) (.clipboardApply b)
  | clipboardPoll (a b : Option String) : SameSchedule (.clipboardPoll a) (.clipboardPoll b)
  | audioPacket (a b : Bytes) : SameSchedule (.audioPacket a) (.audioPacket b)
  | audioSend : SameSchedule .audioSend .audioSend

/-- Without an authorized viewer, the clipboard thread finds no new text and no audio
packet is past its check. -/
def Quiet (s : HostThreads D H) : ThreadLabel J → Prop
  | .clipboardPoll text => s.session.authorized = true ∨ (s.clipboard.poll text).2 = []
  | .audioSend => s.session.authorized = true ∨ s.audio.pending = none
  | _ => True

instance (s : HostThreads D H) (l : ThreadLabel J) : Decidable (Quiet s l) := by
  unfold Quiet
  split <;> infer_instance

def Sent.rejecting (m : Sent) : Prop := m.authorized = false → m.env.rejectsHello = true

instance (m : Sent) : Decidable (Sent.rejecting m) := inferInstanceAs (Decidable (_ → _))

end HostThreads

namespace HostSession

/-- One handler, run on two sessions with different files and before different displays. -/
def AgreesOn (x y : Result D H) : Prop :=
  (∃ files disk, y.1 = { x.1 with files, disk }) ∧ (x.1.authorized = false → y.2 = x.2)

theorem AgreesOn.dropped (s : HostSession D H) (files : FileTransfers H) (disk : D)
    (effects : List HostEffect) : AgreesOn (s, effects) ({ s with files, disk }, effects) :=
  ⟨⟨files, disk, rfl⟩, fun _ => rfl⟩

variable {env : HostEnv D H} {s : HostSession D H} {r : Readings} {files : FileTransfers H} {disk : D}
  {displays : List DisplayDescriptor}

theorem releaseAll_agrees :
    AgreesOn (s.releaseAll r) (({ s with files, disk }).releaseAll { r with displays }) := by
  obtain ⟨_, _, _, _, _, _, _, _, injector, _, _⟩ := s
  cases injector <;> exact ⟨⟨files, disk, rfl⟩, fun _ => rfl⟩

theorem handleInput_agrees (event : Option InputEvent) :
    AgreesOn (s.handleInput env r event)
      (({ s with files, disk }).handleInput env { r with displays } event) := by
  obtain ⟨_, _, _, _, _, _, _, _, injector, _, _⟩ := s
  cases injector <;> cases event <;> exact ⟨⟨files, disk, rfl⟩, fun _ => rfl⟩

theorem handleHello_agrees (major : Nat) (h : Hello) :
    AgreesOn (s.handleHello env r major h)
      (({ s with files, disk }).handleHello env { r with displays } major h) := by
  have decided : decision env { s with files, disk } major h = s.decision env major h := rfl
  simp only [handleHello, decided]
  cases s.decision env major h with
  | error reason => exact .dropped { s with authorized := false } files disk _
  | ok =>
      by_cases locked : s.pwThrottle.locked r.nowAtCheck = true
      · simp only [locked, if_true]
        exact .dropped { s with authorized := false } files disk _
      · by_cases password : verifyConnectPassword env.cfg.connectPassword h.password = true
        · simp only [locked, password]
          exact ⟨⟨files, disk, rfl⟩, fun cleared => Bool.noConfusion cleared⟩
        · simp only [locked, password]
          exact .dropped { s with authorized := false, pwThrottle := _ } files disk _

theorem dispatch_agrees (major : Nat) (p : Payload) :
    AgreesOn (s.dispatch env r major p)
      (({ s with files, disk }).dispatch env { r with displays } major p) := by
  cases p with
  | hello h => exact handleHello_agrees major h
  | input event => exact handleInput_agrees event
  | viewOnly enabled =>
      cases enabled with
      | true => exact releaseAll_agrees (s := { s with viewOnly := true })
      | false => exact .dropped { s with viewOnly := false } files disk []
  | setZoom z => exact .dropped { s with zoom := _ } files disk []
  | _ => exact .dropped s files disk _

/-- The files are reached by an authorized viewer only. -/
theorem handleControl_agrees (bytes : Wire) :
    AgreesOn (s.handleControl env r bytes)
      (({ s with files, disk }).handleControl env { r with displays } bytes) := by
  rcases bytes with _ | ⟨major, _, _ | p⟩
  · exact .dropped s files disk []
  · exact .dropped s files disk []
  · simp only [handleControl]
    by_cases permitted : authorizationPermits p s.authorized = true
    · by_cases suppressed : viewOnlySuppresses p s.viewOnly = true
      · simp only [permitted, suppressed]
        exact .dropped s files disk []
      · simp only [permitted, suppressed]
        have authorized (other : ∀ h, p ≠ .hello h) : s.authorized = true := by
          cases p with
          | hello h => exact absurd rfl (other h)
          | _ => simpa [authorizationPermits] using permitted
        cases p with
        | fileOffer | fileChunk | fileAck | fileComplete | fileCancel =>
            refine ⟨⟨_, _, rfl⟩, fun cleared => ?_⟩
            exact absurd ((authorized fun h same => by cases same).symm.trans cleared) (by simp)
        | _ =>
            simp only [FileTransfers.handle, Bool.not_true, Bool.false_eq_true, if_false]
            exact dispatch_agrees major _
    · simp only [permitted]
      exact .dropped s files disk []

theorem onData_agrees (bytes : Wire) :
    AgreesOn (s.onData env r bytes)
      (({ s with files, disk }).onData env { r with displays } bytes) := by
  have agrees : AgreesOn (s.handleControl env r bytes)
      (({ s with files, disk }).handleControl env { r with displays } bytes) :=
    handleControl_agrees bytes
  obtain ⟨⟨files', disk', same⟩, shown⟩ := agrees
  simp only [onData, same]
  split
  · rename_i edge
    refine ⟨⟨files', disk', rfl⟩, fun cleared => ?_⟩
    simp [show (s.handleControl env r bytes).1.authorized = false from cleared] at edge
  · exact ⟨⟨files', disk', rfl⟩, shown⟩

theorem onEvent_agrees (sdp : J → Option String) (ev : TransportEvent J) :
    AgreesOn (s.onEvent env sdp r ev)
      (({ s with files, disk }).onEvent env sdp { r with displays } ev) := by
  cases ev with
  | data bytes => exact onData_agrees bytes
  | disconnected =>
      obtain ⟨_, _, _, _, _, _, _, _, injector, _, _⟩ := s
      cases injector <;> exact ⟨⟨files, disk, rfl⟩, fun _ => rfl⟩
  | localSignal msg => exact .dropped (s.onLocalSignal sdp msg) files disk []
  | connected => exact .dropped s.onConnected files disk []
  | video annexb tsHint => exact .dropped s files disk []
  | keyframeRequested => exact .dropped s files disk _

theorem turn_agrees (sdp : J → Option String) (ev : TransportEvent J) :
    AgreesOn (s.turn env sdp (.event ev r))
      (({ s with files, disk }).turn env sdp (.event ev { r with displays })) :=
  onEvent_agrees sdp ev

/-- What is sent with the flag cleared rejects a `Hello`. -/
theorem handleControl_rejecting (bytes : Wire)
    (cleared : (s.handleControl env r bytes).1.authorized = false) :
    ∀ e ∈ sentData (s.handleControl env r bytes).2, e.rejectsHello = true := by
  cases carried : hello? bytes with
  | none =>
      rcases handleControl_other env s r carried with dropped | ⟨set, same⟩
      · rw [dropped]
        exact fun _ member => nomatch member
      · exact absurd ((same.authorized.trans set).symm.trans cleared) (by simp)
  | some m =>
      rw [handleControl_hello env s r carried] at cleared ⊢
      have fails : ¬s.helloPasses env r m.1 m.2 := fun passes => by
        simp [(handleHello_authorized env s r m.1 m.2).mpr passes] at cleared
      obtain ⟨t, ack, rejects, same⟩ := handleHello_fails fails
      intro e member
      rw [same] at member
      cases List.mem_singleton.mp member
      exact rejects

theorem turn_rejecting (sdp : J → Option String) (i : Input J)
    (cleared : (s.turn env sdp i).1.authorized = false) :
    ∀ e ∈ sentData (s.turn env sdp i).2, e.rejectsHello = true := by
  have silent {effects : List HostEffect} (none_ : sentData effects = []) :
      ∀ e ∈ sentData effects, e.rejectsHello = true := by
    rw [none_]
    exact fun _ member => nomatch member
  cases i with
  | signal msg => exact silent rfl
  | geometryChanged rect built => exact silent rfl
  | event ev r =>
      cases ev with
      | data bytes =>
          have cleared : (s.handleControl env r bytes).1.authorized = false :=
            (onData_authorized env s r bytes).symm.trans cleared
          have quiet : s.onData env r bytes = s.handleControl env r bytes :=
            onData_silent (by simp [cleared])
          simp only [turn, onEvent, quiet]
          exact handleControl_rejecting bytes cleared
      | disconnected =>
          refine silent ?_
          obtain ⟨_, _, _, _, _, _, _, _, injector, _, _⟩ := s
          cases injector <;> rfl
      | _ => exact silent rfl

end HostSession

namespace HostThreads
variable {env : HostEnv D H} {sdp : J → Option String}

/-- A step sends something else than a rejection to an unauthorized viewer unless it is quiet. -/
theorem step_rejecting_iff (s : HostThreads D H) (l : ThreadLabel J) :
    (∀ m ∈ (step env sdp s l).2, Sent.rejecting m) ↔ Quiet s l := by
  cases l with
  | turn i =>
      refine ⟨fun _ => trivial, fun _ m member => ?_⟩
      obtain ⟨e, sent, rfl⟩ := List.mem_map.mp member
      exact fun cleared => HostSession.turn_rejecting sdp i cleared e sent
  | clipboardApply setText => exact ⟨fun _ => trivial, fun _ => List.forall_mem_nil _⟩
  | clipboardPoll text =>
      constructor
      · intro rejecting
        refine or_iff_not_imp_left.mpr fun unauthorized => List.eq_nil_iff_forall_not_mem.mpr ?_
        intro e sent
        have := rejecting _ (List.mem_map_of_mem sent) (Bool.eq_false_iff.mpr unauthorized)
        obtain ⟨text, seq, rfl⟩ := ClipboardSync.poll_sends sent
        cases this
      · rintro (set | quiet) m member
        · obtain ⟨e, -, rfl⟩ := List.mem_map.mp member
          exact fun cleared => absurd (set.symm.trans cleared) (by simp)
        · simp [step, quiet] at member
  | audioPacket opus =>
      refine ⟨fun _ => trivial, fun _ m member => ?_⟩
      simp only [step] at member
      split at member <;> cases member
  | audioSend =>
      simp only [step, Quiet]
      cases pending : s.audio.pending with
      | none => exact ⟨fun _ => .inr rfl, fun _ => List.forall_mem_nil _⟩
      | some opus =>
          constructor
          · intro rejecting
            refine .inl (Bool.eq_true_of_not_eq_false fun cleared => ?_)
            have := rejecting _ (List.mem_singleton_self _) cleared
            cases this
          · rintro (set | quiet) m member
            · cases List.mem_singleton.mp member
              exact fun cleared => absurd (set.symm.trans cleared) (by simp)
            · cases quiet

def Sent.unauthorized (m : Sent) : Bool := !m.authorized

theorem filter_flagged (flag : Bool) (set : flag = true) (sent : List Envelope) :
    (sent.map (Sent.mk flag)).filter Sent.unauthorized = [] := by
  simp [Sent.unauthorized, set]

theorem step_alike {s t : HostThreads D H} {a b : ThreadLabel J} (alike : Alike s t)
    (labels : SameSchedule a b) (quiet : Quiet s a) (quiet' : Quiet t b) :
    Alike (step env sdp s a).1 (step env sdp t b).1 ∧
      (step env sdp s a).2.filter Sent.unauthorized =
        (step env sdp t b).2.filter Sent.unauthorized := by
  obtain ⟨files, disk, same⟩ := alike
  have flag : t.session.authorized = s.session.authorized := by rw [same]
  cases labels with
  | signal msg => exact ⟨⟨files, disk, by simp only [step, same]; rfl⟩, rfl⟩
  | geometry rect built => exact ⟨⟨files, disk, by simp only [step, same]; rfl⟩, rfl⟩
  | event ev r displays =>
      have agrees : HostSession.AgreesOn (s.session.turn env sdp (.event ev r))
          (({ s.session with files, disk }).turn env sdp (.event ev { r with displays })) :=
        HostSession.turn_agrees sdp ev
      obtain ⟨next, shown⟩ := agrees
      simp only [step, same]
      refine ⟨next, ?_⟩
      obtain ⟨files', disk', after⟩ := next
      cases set : (s.session.turn env sdp (.event ev r)).1.authorized with
      | false => rw [shown set, after, set]
      | true => rw [after, filter_flagged _ rfl, filter_flagged _ set]
  | clipboardApply a b => exact ⟨⟨files, disk, same⟩, rfl⟩
  | clipboardPoll a b =>
      refine ⟨⟨files, disk, same⟩, ?_⟩
      simp only [step, flag]
      cases set : s.session.authorized with
      | true => rw [filter_flagged _ rfl, filter_flagged _ rfl]
      | false =>
          rw [quiet.resolve_left (by simp [set]), quiet'.resolve_left (by simp [flag, set])]
  | audioPacket a b =>
      simp only [step]
      split <;> split <;> exact ⟨⟨files, disk, same⟩, rfl⟩
  | audioSend =>
      simp only [step]
      cases set : s.session.authorized with
      | true =>
          split <;> split <;>
            exact ⟨⟨files, disk, same⟩, by simp [Sent.unauthorized, flag, set]⟩
      | false =>
          rw [quiet.resolve_left (by simp [set]), quiet'.resolve_left (by simp [flag, set])]
          exact ⟨⟨files, disk, same⟩, rfl⟩

/-- Two runs of one schedule, from sessions that differ in clipboard, audio and files only,
send an unauthorized viewer the same messages, all of them rejections, exactly when both are
quiet at every step. -/
theorem unauthorized_alike_iff {s t : HostThreads D H} (alike : Alike s t)
    {as bs : List (ThreadLabel J)} (schedule : List.Forall₂ SameSchedule as bs) :
    ((trace (step env sdp) s as).filter Sent.unauthorized =
        (trace (step env sdp) t bs).filter Sent.unauthorized ∧
      (∀ m ∈ trace (step env sdp) s as, Sent.rejecting m) ∧
      ∀ m ∈ trace (step env sdp) t bs, Sent.rejecting m) ↔
    Meets (step env sdp) Quiet s as ∧ Meets (step env sdp) Quiet t bs := by
  rw [trace_forall_iff step_rejecting_iff, trace_forall_iff step_rejecting_iff]
  refine ⟨And.right, fun met => ⟨?_, met⟩⟩
  exact unwinding (fun _ _ _ _ => step_alike) alike schedule met.1 met.2

def start (downloadDir : String) : HostThreads Unit Unit where
  session := .new none downloadDir ()
  clipboard := .new
  audio := { pending := none, seq := 0 }

/-- The peer connects and sends a wrong password; the clipboard holds `text`. -/
def intrusion (text : String) : List (ThreadLabel String) :=
  [.turn (.signal (.answer "a=fingerprint:sha-256 AB")), .turn (.event .connected .sample),
   .turn (.event (.data (sampleHello "SHA-256 AB" "burrito")) .sample),
   .clipboardPoll (some text)]

theorem intrusion_schedule (a b : String) :
    List.Forall₂ SameSchedule (intrusion a) (intrusion b) :=
  .cons (.signal _) <| .cons (.event _ .sample []) <| .cons (.event _ .sample []) <|
    .cons (.clipboardPoll _ _) .nil

theorem start_alike (a b : String) : Alike (start a) (start b) :=
  ⟨.new b, (), rfl⟩

theorem unauthorized_alike_iff_empty :
    (trace (step sampleEnv some) (start "a") (intrusion "")).filter Sent.unauthorized =
      (trace (step sampleEnv some) (start "b") (intrusion "")).filter Sent.unauthorized :=
  ((unauthorized_alike_iff (start_alike "a" "b") (intrusion_schedule "" "")).mpr (by decide)).1

/-- The peer was rejected, and is sent the clipboard. -/
theorem intruder_reads_clipboard :
    Alike (start "") (start "") ∧ List.Forall₂ SameSchedule (intrusion "taco") (intrusion "key") ∧
      (trace (step sampleEnv some) (start "") (intrusion "taco")).filter Sent.unauthorized ≠
        (trace (step sampleEnv some) (start "") (intrusion "key")).filter Sent.unauthorized ∧
      ∃ m ∈ trace (step sampleEnv some) (start "") (intrusion "taco"), m.authorized = false ∧
        m.env = clipboardText "taco" 1 := by
  refine ⟨start_alike "" "", intrusion_schedule "taco" "key", ?_, ?_⟩
  · decide
  · decide

end HostThreads
end ReachMyDevice
