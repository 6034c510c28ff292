import ReachMyDevice.HostLink
import ReachMyDevice.VideoPlane
import ReachMyDevice.VideoWrites

/-!
# Who is sent the screen

A host session with its driver and its video plane. Frames of the plane are queued
to the driver, which writes them to whatever connection it then has.
-/
namespace ReachMyDevice
open Machines Driver

variable {J D H : Type}

/-! ## What starts the video -/

namespace HostSession

variable {env : HostEnv D H} {sdp : J → Option String} {s : HostSession D H} {r : Readings}

theorem releaseAll_resume : HostEffect.video .resume ∉ (s.releaseAll r).2 := by
  unfold releaseAll
  split <;> simp

theorem dispatch_resume {major : Nat} {p : Payload} (other : ∀ h, p ≠ .hello h) :
    HostEffect.video .resume ∉ (s.dispatch env r major p).2 := by
  cases p with
  | hello h => exact absurd rfl (other h)
  | input event =>
      simp only [dispatch, handleInput]
      split <;> simp
  | viewOnly enabled =>
      simp only [dispatch, handleViewOnly]
      split
      · exact releaseAll_resume
      · simp
  | _ => simp [dispatch]

theorem handleControl_resume {bytes : Wire}
    (resumes : HostEffect.video .resume ∈ (s.handleControl env r bytes).2) :
    s.verdict env r bytes = some true := by
  cases carried : hello? bytes with
  | some m =>
      rw [handleControl_hello env s r carried] at resumes
      by_cases passes : s.helloPasses env r m.1 m.2
      · simp [verdict, carried, passes]
      · obtain ⟨t, ack, -, same⟩ := handleHello_fails passes
        rw [same] at resumes
        simp [reject] at resumes
  | none =>
      exfalso
      rcases bytes with _ | ⟨major, _, _ | p⟩
      · cases resumes
      · cases resumes
      · have notHello : ∀ h, p ≠ .hello h := by
          rintro h rfl
          cases carried
        simp only [handleControl] at resumes
        split at resumes
        · cases resumes
        · split at resumes
          · cases resumes
          · split at resumes
            · obtain ⟨o, -, same⟩ := List.mem_map.mp resumes
              cases o <;> cases same
            · exact dispatch_resume notHello resumes

/-- Only an accepted `Hello` starts the video. -/
theorem onEvent_resume (ev : TransportEvent J)
    (resumes : HostEffect.video .resume ∈ (s.onEvent env sdp r ev).2) :
    s.eventVerdict env r ev = some true := by
  cases ev with
  | data bytes =>
      refine handleControl_resume ?_
      simp only [onEvent, onData] at resumes
      split at resumes
      · simpa using resumes
      · exact resumes
  | disconnected =>
      rcases List.mem_append.mp resumes with released | paused
      · exact absurd released releaseAll_resume
      · simp at paused
  | localSignal msg | connected | video annexb tsHint => cases resumes
  | keyframeRequested => simp [onEvent] at resumes

end HostSession

/-! ## The composition -/

/-- A frame that was written: the connection, and the verdict on the most recent `Hello`. -/
structure Written (J : Type) where
  frame : VideoFrame
  pc : Pc J
  lastHello : Option (Nat × Bool)
  deriving DecidableEq, Repr

structure VideoHost (J D H : Type) where
  host : HostLink J D H
  plane : VideoPlane
  written : List (Written J)

inductive VideoLabel (J : Type)
  | signal (msg : SignalMsg J)
  | peerSwitched
  /-- Another thread queues a message. -/
  | send (env : Envelope)
  | driver (l : DriverLabel J)
  | handle (r : Readings) (started : Bool)
  | pollGeometry (built : NewInjector)
  | plane (l : PlaneLabel)

namespace VideoHost

def pc (s : VideoHost J D H) : Pc J := s.host.link.driver.pc

/-- A write before the negotiation is complete fails. -/
def writes (s : VideoHost J D H) (out : List (DriverOut J)) : List (Written J) :=
  if s.pc.negotiated then (rtpFrames out).map (⟨·, s.pc, s.host.lastHello⟩) else []

/-- The session handles the event at the head of the queue. -/
def handled (env : HostEnv D H) (rtc : Rtc J) (s : VideoHost J D H) (r : Readings)
    (started : Bool) (pc : Pc J) (ev : TransportEvent J) (rest : List (Pc J × TransportEvent J)) :
    VideoHost J D H :=
  { s with
    host := s.host.take env rtc r pc ev rest
    plane := s.plane.calls started (s.host.session.onEvent env rtc.sdp r ev).2 }

variable [DecidableEq J]

def step (env : HostEnv D H) (rtc : Rtc J) (greeters : List Nat) (s : VideoHost J D H) :
    VideoLabel J → Option (VideoHost J D H)
  | .signal msg => some { s with host := s.host.receive rtc msg }
  | .peerSwitched => some { s with host := { s.host with link := s.host.link.post [.iceRestart] } }
  | .send e => some { s with host := { s.host with link := s.host.link.post [.data (encode e)] } }
  | .driver l => (s.host.link.drive rtc l).map fun k =>
    { s with host := { s.host with link := k.1 }, written := s.written ++ s.writes k.2 }
  | .handle r started =>
    match s.host.link.events with
    | [] => none
    | (pc, ev) :: rest =>
      if r.displays = s.plane.descriptors then some (s.handled env rtc r started pc ev rest)
      else none
  | .pollGeometry built => s.plane.pollGeometryChanged.map fun changed =>
    { s with
      host := { s.host with session := s.host.session.onGeometryChanged changed.1 built }
      plane := changed.2 }
  | .plane l =>
    (s.plane.step greeters s.host.session.authorized s.host.session.zoom l).map fun r =>
      { s with host := { s.host with link := s.host.link.post (r.2.map .video) }, plane := r.1 }

def machine (env : HostEnv D H) (rtc : Rtc J) (greeters : List Nat) :
    Machine (VideoHost J D H) (VideoLabel J) where
  init s := ∃ gathered injector downloadDir disk plane,
    ((∃ displays displayIndex, plane = .inProcess (.new (.start displays displayIndex))) ∨
      plane = .broker .new) ∧
    s = ⟨.start rtc gathered injector downloadDir disk, plane, []⟩
  step := step env rtc greeters

/-- No frame is queued to the driver, and none comes out of the plane. -/
def Idle (s : VideoHost J D H) (authorized : Bool) : Prop :=
  commandFrames s.host.link.commands = [] ∧ s.plane.Idle authorized

/-- A connection is negotiated while the video is idle. On a negotiated connection a
`Hello` is accepted only if it came over that connection, and rejected only while the video
is idle. -/
def IdleBetweenViewers (env : HostEnv D H) (s : VideoHost J D H) : VideoLabel J → Prop
  | .driver (.command (.signal (.answer _)) (.applied _)) =>
    s.host.link.driver.negotiatedOnce = false → s.Idle s.host.session.authorized
  | .handle r _ =>
    match s.host.link.events with
    | [] => True
    | (pc, ev) :: _ => s.pc.negotiated = true →
      match s.host.session.eventVerdict env r ev with
      | none => True
      | some true => pc.id = s.pc.id
      | some false => s.Idle false
  | _ => True

omit [DecidableEq J] in
instance (s : VideoHost J D H) (authorized : Bool) : Decidable (s.Idle authorized) :=
  inferInstanceAs (Decidable (_ ∧ _))

omit [DecidableEq J] in
instance (env : HostEnv D H) (s : VideoHost J D H) (l : VideoLabel J) :
    Decidable (IdleBetweenViewers env s l) := by
  unfold IdleBetweenViewers
  split
  · infer_instance
  · split
    · infer_instance
    · refine @instDecidableForall _ _ _ ?_
      split <;> infer_instance
  · infer_instance

/-! ## Who sees the video -/

/-- A negotiated connection has an accepted viewer, or the video is idle. -/
structure Gated (s : VideoHost J D H) : Prop where
  host : s.host.link.driver.isHost = true
  gate : s.pc.negotiated = true →
    s.host.lastHello = some (s.pc.id, true) ∨ s.Idle s.host.session.authorized
  written : ∀ w ∈ s.written, w.lastHello = some (w.pc.id, true)

omit [DecidableEq J] in
theorem commandFrames_append (l m : List (DriverCmd J)) :
    commandFrames (l ++ m) = commandFrames l ++ commandFrames m := List.filterMap_append

omit [DecidableEq J] in
theorem Gated.post {s : VideoHost J D H} (h : s.Gated) (cmds : List (DriverCmd J))
    (none_ : commandFrames cmds = []) :
    Gated { s with host := { s.host with link := s.host.link.post cmds } } := by
  refine ⟨h.host, fun negotiated => (h.gate negotiated).imp_right fun idle => ?_, h.written⟩
  refine ⟨?_, idle.2⟩
  rw [Link.post, commandFrames_append, idle.1, none_]
  rfl

theorem commandFrames_taken {k k' : Link J} {rtc : Rtc J} {l : DriverLabel J}
    {out : List (DriverOut J)} (driven : Link.Driven rtc k l k' out)
    (none_ : commandFrames k.commands = []) :
    commandFrames k'.commands = [] ∧ rtpFrames out = [] := by
  simp only [commandFrames, List.filterMap_eq_nil_iff] at none_ ⊢
  refine ⟨fun cmd member => none_ cmd (Link.takeCommand_subset driven.commands member), ?_⟩
  refine List.eq_nil_iff_forall_not_mem.mpr fun frame written => ?_
  obtain ⟨outcome, rfl⟩ := step_rtp driven.step written
  have := none_ _ (Link.takeCommand_taken driven.commands)
  cases this

theorem Gated.driver {rtc : Rtc J} {s : VideoHost J D H} {l : DriverLabel J} {k : Link J}
    {out : List (DriverOut J)} (h : s.Gated) {env : HostEnv D H}
    (met : IdleBetweenViewers env s (.driver l)) (driven : Link.Driven rtc s.host.link l k out) :
    Gated { s with host := { s.host with link := k }, written := s.written ++ s.writes out } := by
  refine ⟨(step_isHost driven.step).trans h.host, fun negotiated => ?_, fun w member => ?_⟩
  · have idle (before : s.Idle s.host.session.authorized) :
        commandFrames k.commands = [] ∧ s.plane.Idle s.host.session.authorized :=
      ⟨(commandFrames_taken driven before.1).1, before.2⟩
    rcases step_negotiated driven.allowed driven.step h.host negotiated with
      ⟨before, id⟩ | ⟨fresh, json, refusedAt, rfl⟩
    · refine (h.gate before).imp (fun accepted => ?_) idle
      exact accepted.trans (by rw [VideoHost.pc, VideoHost.pc, id])
    · exact .inr (idle (met fresh))
  · rcases List.mem_append.mp member with old | new
    · exact h.written w old
    · unfold VideoHost.writes at new
      split at new
      · rename_i negotiated
        obtain ⟨frame, written, rfl⟩ := List.mem_map.mp new
        rcases h.gate negotiated with accepted | idle
        · exact accepted
        · rw [(commandFrames_taken driven idle.1).2] at written
          cases written
      · cases new

omit [DecidableEq J] in
theorem effectCommands_frames (effects : List HostEffect) :
    commandFrames (J := J) (effects.filterMap effectCommand) = [] := by
  simp only [commandFrames, List.filterMap_eq_nil_iff]
  intro cmd member
  obtain ⟨e, -, sent⟩ := List.mem_filterMap.mp member
  cases e <;> cases sent
  rfl

omit [DecidableEq J] in
theorem Gated.handle {env : HostEnv D H} {rtc : Rtc J} {s : VideoHost J D H} {r : Readings}
    {started : Bool} {pc : Pc J} {ev : TransportEvent J} {rest : List (Pc J × TransportEvent J)}
    (h : s.Gated) (queue : s.host.link.events = (pc, ev) :: rest)
    (met : IdleBetweenViewers env s (.handle r started)) :
    (s.handled env rtc r started pc ev rest).Gated := by
  simp only [IdleBetweenViewers, queue] at met
  refine ⟨h.host, fun negotiated => ?_, h.written⟩
  have met := met negotiated
  simp only [handled, HostLink.take_lastHello]
  -- without an accepted `Hello` the video stays as idle as it was
  have stays {authorized : Bool} (other : s.host.session.eventVerdict env r ev ≠ some true)
      (idle : s.Idle authorized)
      (flag : (s.host.session.onEvent env rtc.sdp r ev).1.authorized = true → authorized = true) :
      (s.handled env rtc r started pc ev rest).Idle
        (s.host.session.onEvent env rtc.sdp r ev).1.authorized := by
    refine ⟨?_, ?_⟩
    · simp only [handled, HostLink.take, Link.post, commandFrames_append, idle.1,
        effectCommands_frames, List.append_nil]
    · refine (idle.2.weaken flag).calls started fun resumes => other ?_
      exact HostSession.onEvent_resume ev resumes
  cases heard : s.host.session.eventVerdict env r ev with
  | none =>
      rw [heard] at met
      refine (h.gate negotiated).imp_right fun idle => stays (by simp [heard]) idle fun set => ?_
      have flag := HostSession.onEvent_authorized ev set
      rwa [heard] at flag
  | some v =>
      rw [heard] at met
      cases v with
      | true => exact .inl (congrArg (fun id => some (id, true)) met)
      | false =>
          refine .inr (stays (by simp [heard]) met fun set => ?_)
          have flag := HostSession.onEvent_authorized ev set
          rwa [heard] at flag

theorem Gated.step {env : HostEnv D H} {rtc : Rtc J} {greeters : List Nat} {s s' : VideoHost J D H}
    {l : VideoLabel J} (h : s.Gated) (met : IdleBetweenViewers env s l)
    (taken : VideoHost.step env rtc greeters s l = some s') : s'.Gated := by
  cases l with
  | signal msg =>
      cases taken
      have posted := h.post [.signal msg] rfl
      exact ⟨posted.host, posted.gate, posted.written⟩
  | peerSwitched =>
      cases taken
      exact h.post [.iceRestart] rfl
  | send e =>
      cases taken
      exact h.post [.data (encode e)] rfl
  | driver l =>
      obtain ⟨⟨k, out⟩, driven, rfl⟩ := Option.map_eq_some_iff.mp taken
      exact h.driver met (Link.drive_cases driven)
  | handle r started =>
      simp only [VideoHost.step] at taken
      split at taken
      · cases taken
      · rename_i pc ev rest queue
        obtain ⟨-, same⟩ := Option.ite_none_right_eq_some.mp taken
        cases same
        exact h.handle queue met
  | pollGeometry built =>
      obtain ⟨⟨rect, plane⟩, changed, rfl⟩ := Option.map_eq_some_iff.mp taken
      refine ⟨h.host, fun negotiated => (h.gate negotiated).imp_right fun idle => ?_, h.written⟩
      exact ⟨idle.1, idle.2.pollGeometryChanged changed⟩
  | plane l =>
      obtain ⟨⟨plane, frames⟩, stepped, rfl⟩ := Option.map_eq_some_iff.mp taken
      refine ⟨h.host, fun negotiated => (h.gate negotiated).imp_right fun idle => ?_, h.written⟩
      obtain ⟨stays, silent⟩ := idle.2.step stepped
      refine ⟨?_, stays⟩
      simp only [Link.post, commandFrames_append, idle.1, silent]
      rfl

/-- In every run whose video is idle between viewers, each frame is written to a connection
that has sent the most recent `Hello`, which was accepted. -/
theorem written_to_accepted {env : HostEnv D H} {rtc : Rtc J} {greeters : List Nat}
    {s : VideoHost J D H} (run : (machine env rtc greeters).ReachableBy (IdleBetweenViewers env) s)
    {w : Written J} (written : w ∈ s.written) : w.lastHello = some (w.pc.id, true) := by
  have gated : s.Gated := by
    refine run.invariant ?_ ?_
    · rintro s ⟨gathered, injector, downloadDir, disk, plane, -, rfl⟩
      refine ⟨rfl, fun negotiated => Bool.noConfusion negotiated, fun _ member => nomatch member⟩
    · intro s l s' h met taken
      exact h.step met taken
  exact gated.written w written

/-! ## Closed runs -/

/-- A viewer answers the offer of the current connection. -/
def connects (text : String) : List (VideoLabel String) :=
  [.signal (.answer text), .driver (.command (.signal (.answer text)) (.applied none)),
   .driver .commandsDone, .driver .established,
   .driver (.event (.connectionStateChange .connected)), .driver (.eventsDone none .rejected)]

def sampleFrame : VideoFrame := { annexb := [], isKeyframe := true, tsMicros := 0 }

def sampleRaw : Frame := { data := [], width := 1, height := 1, bytesPerRow := 4, captureTsMicros := 0 }

def sampleAck : Wire :=
  encode (helloAckOkSigned "host" 0 (sampleIdentity 1).publicKeyBytes
    ((sampleIdentity 1).accessProof (utf8 "SHA-256 00")) .h264)

/-- The viewer sends an accepted `Hello`, and the driver sends the answers to it. -/
def greets : List (VideoLabel String) :=
  [.driver (.read (.dataChannelMessage (sampleHello "SHA-256 AB" "taco"))), .driver .readsDone] ++
  List.replicate 3 (.handle .sample true) ++
  [.driver (.command (.data sampleAck) .rejected),
   .driver (.command (.data (encode (displayList []))) .rejected)]

def films : List PipelineLabel := [.captured sampleRaw, .take, .encoded (some sampleFrame)]

def writesFrame : VideoLabel String := .driver (.command (.video sampleFrame) .rejected)

def inProcessPlane : VideoPlane := .inProcess (.new (.start [] 0))

def sampleStart (plane : VideoPlane) : VideoHost String Unit Unit :=
  ⟨.start sampleRtc [] none "" (), plane, []⟩

theorem written_to_accepted_viewer : ∃ (s : VideoHost String Unit Unit) (w : Written String),
    w ∈ s.written ∧ w.lastHello = some (w.pc.id, true) := by
  obtain ⟨s, run, nonempty⟩ := Machine.exists_reachableBy
    (machine (D := Unit) (H := Unit) sampleEnv sampleRtc []) (IdleBetweenViewers sampleEnv)
    (s := sampleStart inProcessPlane) ⟨[], none, "", (), _, .inl ⟨[], 0, rfl⟩, rfl⟩
    (connects "a=fingerprint:sha-256 AB" ++ greets ++
      films.map (.plane ∘ .inProcess) ++ [writesFrame])
    (fun s => s.written ≠ []) (by decide +kernel)
  obtain ⟨w, written⟩ := List.exists_mem_of_ne_nil _ nonempty
  exact ⟨s, w, written, written_to_accepted run written⟩

/-- A second answer on a connection that is up: the driver rebuilds without a `Disconnected`,
and the newcomer answers the new offer. -/
def takesOver : List (VideoLabel String) :=
  [.signal (.answer "a=fingerprint:sha-256 CD"),
   .driver (.command (.signal (.answer "a=fingerprint:sha-256 CD")) .rejected),
   .driver .commandsDone, .driver (.eventsDone (some []) (.applied none))] ++
  connects "a=fingerprint:sha-256 CD" ++ [.driver .readsDone]

def agentConnects : List (VideoLabel String) :=
  [.plane (.broker (.accept 1000 [] 0 0 none)), .plane (.broker (.read 0)), .plane (.broker .event)]

/-- The broker tells its agent what the accepted viewer wants, and the agent does it. -/
def agentStarts : List (VideoLabel String) :=
  [.broker .command, .broker .command, .broker (.agent 0 .receive), .broker (.agent 0 .receive),
   .broker (.agent 0 (.control true)), .broker (.agent 0 (.control true))].map .plane

def agentFilms : List (VideoLabel String) :=
  films.map (fun l => .plane (.broker (.agent 0 (.pipeline l)))) ++ [.plane (.broker (.read 0))]

def handles (n : Nat) : List (VideoLabel String) := List.replicate n (.handle .sample true)

/-- Nothing has come from the peer a frame was written to. -/
def ToStranger (s : VideoHost J D H) (w : Written J) : Prop :=
  w.pc.established = true ∧ ∀ m ∈ s.host.handled, m.pc.id ≠ w.pc.id

omit [DecidableEq J] in
instance (s : VideoHost J D H) (w : Written J) : Decidable (s.ToStranger w) :=
  inferInstanceAs (Decidable (_ ∧ _))

/-- A viewer that takes over is sent the screen before it has said anything, on either
plane; behind the broker even while the session has the flag cleared, and so is a viewer
whose second `Hello` is rejected. -/
theorem newcomer_is_sent_screen :
    (∃ s : VideoHost String Unit Unit, (machine sampleEnv sampleRtc []).Reachable s ∧
      s.plane.isBroker = false ∧ ∃ w ∈ s.written, s.ToStranger w) ∧
    (∃ s : VideoHost String Unit Unit, (machine sampleEnv sampleRtc []).Reachable s ∧
      s.plane.isBroker = true ∧ s.host.session.authorized = false ∧
        ∃ w ∈ s.written, s.ToStranger w) ∧
    ∃ s : VideoHost String Unit Unit, (machine sampleEnv sampleRtc []).Reachable s ∧
      s.plane.isBroker = true ∧ ∃ w ∈ s.written, w.lastHello = some (w.pc.id, false) := by
  refine ⟨?_, ?_, ?_⟩
  · exact Machine.exists_reachableBy (machine sampleEnv sampleRtc []) _
      (s := sampleStart inProcessPlane) ⟨[], none, "", (), _, .inl ⟨[], 0, rfl⟩, rfl⟩
      (connects "a=fingerprint:sha-256 AB" ++ greets ++ takesOver ++
        films.map (.plane ∘ .inProcess) ++ [writesFrame]) _ (by decide +kernel)
  · exact Machine.exists_reachableBy (machine sampleEnv sampleRtc []) _
      (s := sampleStart (.broker .new)) ⟨[], none, "", (), _, .inr rfl, rfl⟩
      (agentConnects ++ connects "a=fingerprint:sha-256 AB" ++ greets ++ agentStarts ++ takesOver ++
        handles 2 ++ agentFilms ++ [writesFrame]) _ (by decide +kernel)
  · exact Machine.exists_reachableBy (machine sampleEnv sampleRtc []) _
      (s := sampleStart (.broker .new)) ⟨[], none, "", (), _, .inr rfl, rfl⟩
      (agentConnects ++ connects "a=fingerprint:sha-256 AB" ++ greets ++ agentStarts ++
        [.driver .commandsDone, .driver (.eventsDone none .rejected),
         .driver (.read (.dataChannelMessage (sampleHello "SHA-256 AB" "burrito"))),
         .driver .readsDone] ++ handles 1 ++
        [.driver (.command (.data (encode
          (helloAckPasswordRequired "connection password required"))) .rejected)] ++
        agentFilms ++ [writesFrame]) _ (by decide +kernel)

end VideoHost
end ReachMyDevice
