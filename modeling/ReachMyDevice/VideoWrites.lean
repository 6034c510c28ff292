import ReachMyDevice.Negotiation

/-!
# What a driver writes of the screen

Frames are commands of the application. A driver writes them to whatever connection
it then has.
-/
namespace ReachMyDevice
variable {J : Type}

/-- The negotiation is complete; the library refuses RTP before. -/
def Pc.negotiated (pc : Pc J) : Bool := pc.remoteDescription.isSome

def rtpFrames (out : List (DriverOut J)) : List VideoFrame :=
  out.filterMap fun
    | .writeRtp frame => some frame
    | _ => none

def commandFrames (cmds : List (DriverCmd J)) : List VideoFrame :=
  cmds.filterMap fun
    | .video frame => some frame
    | _ => none

namespace Driver

theorem rtpFrames_emits (evs : List (TransportEvent J)) : rtpFrames (evs.map .emit) = [] := by
  simp [rtpFrames, List.filterMap_map]

theorem rtpFrames_candidates (lines : List String) :
    rtpFrames (J := J) (lines.map emitCandidate) = [] := by
  have := rtpFrames_emits (lines.map fun line => TransportEvent.localSignal (J := J) (.candidate line))
  rwa [List.map_map] at this

theorem rtpFrames_signal (msg : SignalMsg J) (lines : List String) :
    rtpFrames (.emit (.localSignal msg) :: lines.map emitCandidate) = [] := rtpFrames_candidates lines

theorem applySignal_rtp (rtc : Rtc J) (d : Driver J) (msg : SignalMsg J) (outcome : SetRemote) :
    rtpFrames (applySignal rtc d msg outcome).2 = [] := by
  cases msg with
  | offer json =>
      simp only [applySignal]
      split
      · rfl
      · cases outcome with
        | rejected | unanswered => rfl
        | applied refusedAt => cases refusedAt <;> exact rtpFrames_signal _ _
  | answer json =>
      simp only [applySignal]
      split
      · rfl
      · cases outcome <;> rfl
  | candidate line =>
      simp only [applySignal]
      split <;> rfl

theorem rebuilt_rtp (rtc : Rtc J) (d : Driver J) (gathered : Option (List String))
    (outcome : SetRemote) : rtpFrames (rebuilt rtc d gathered outcome).2 = [] := by
  cases gathered with
  | none => rfl
  | some lines =>
      simp only [rebuilt]
      split
      · cases outcome.refusedAt <;> exact rtpFrames_signal _ _
      · simp only [runViewer]
        cases d.pendingOffer with
        | none => rfl
        | some json => exact applySignal_rtp rtc _ (.offer json) outcome

theorem drainEvent_rtp (d : Driver J) (e : PcEvent) : rtpFrames (drainEvent d e).2 = [] := by
  cases e with
  | connectionStateChange s =>
      cases s with
      | new | connecting => rfl
      | connected | disconnected | failed | closed =>
          simp only [drainEvent]
          split <;> rfl
  | iceCandidate c =>
      cases c with
      | none => rfl
      | some line =>
          simp only [drainEvent]
          split <;> rfl
  | dataChannelOpen id => rfl
  | other => rfl

theorem drainRead_rtp (d : Driver J) (m : RtcMessage) : rtpFrames (drainRead d m) = [] := by
  cases m with
  | rtpPacket samples =>
      simp only [drainRead]
      split
      · rfl
      · have := rtpFrames_emits (J := J) (samples.map fun s => .video s.1 s.2)
        rwa [List.map_map] at this
  | dataChannelMessage bytes => rfl
  | rtcpPacket wants => cases wants <;> rfl

/-- Every frame that is written was a command. -/
theorem step_rtp {rtc : Rtc J} {d d' : Driver J} {l : DriverLabel J} {out : List (DriverOut J)}
    (taken : step rtc d l = some (d', out)) {frame : VideoFrame} (written : frame ∈ rtpFrames out) :
    ∃ outcome, l = .command (.video frame) outcome := by
  have silent (none_ : rtpFrames out = []) : False := by simp [none_] at written
  cases turn_of_step taken with
  | command cmd outcome _ same =>
      cases cmd with
      | video other =>
          cases same
          have here : frame = other := by
            cases role : d.isHost <;> simp [rtpFrames, role] at written
            exact written
          exact ⟨outcome, by rw [here]⟩
      | signal msg =>
          have none_ := applySignal_rtp rtc d msg outcome
          exact (silent (by rwa [← drainCommand, same] at none_)).elim
      | data bytes =>
          cases same
          exact (silent (by unfold sendData; split <;> rfl)).elim
      | iceRestart | shutdown =>
          cases same
          exact (silent rfl).elim
  | event e _ same =>
      have none_ := drainEvent_rtp d e
      rw [same] at none_
      exact (silent none_).elim
  | renews gathered outcome _ _ same =>
      have none_ := rebuilt_rtp rtc d gathered outcome
      rw [same] at none_
      exact (silent none_).elim
  | read m _ => exact (silent (drainRead_rtp d m)).elim
  | stays | established | commandsDone | readsDone | fault => exact (silent rfl).elim

/-- A host's connection is negotiated by the first answer that is applied to it. -/
theorem step_negotiated {rtc : Rtc J} {d d' : Driver J} {l : DriverLabel J}
    {out : List (DriverOut J)} (allowed : libAllows rtc d l)
    (taken : step rtc d l = some (d', out)) (host : d.isHost = true)
    (negotiated : d'.pc.negotiated = true) :
    (d.pc.negotiated = true ∧ d'.pc.id = d.pc.id) ∨
      d.negotiatedOnce = false ∧
        ∃ json refusedAt, l = .command (.signal (.answer json)) (.applied refusedAt) := by
  by_cases offer : ∃ json outcome, l = .command (.signal (.offer json)) outcome
  · obtain ⟨json, outcome, rfl⟩ := offer
    have refused : outcome = .rejected := allowed host
    simp only [step, Option.ite_none_right_eq_some, Option.some.injEq, drainCommand, applySignal,
      refused] at taken
    obtain ⟨-, taken⟩ := taken
    split at taken <;>
      · cases taken
        exact .inl ⟨negotiated, rfl⟩
  · have told := step_host taken host fun json outcome here => offer ⟨json, outcome, here⟩
    generalize signaled out = sent at told
    cases told with
    | quiet quiet =>
        obtain ⟨id, -, remoteDescription, -, -, -⟩ := quiet.same
        rw [Pc.negotiated, remoteDescription] at negotiated
        exact .inl ⟨negotiated, id⟩
    | again before => exact .inl ⟨negotiated, rfl⟩
    | refused before => exact .inl ⟨negotiated, rfl⟩
    | accepted before => exact .inr ⟨before, _, _, rfl⟩
    | renewed id localDescription new => simp [Pc.negotiated, new.remoteDescription] at negotiated

end Driver
end ReachMyDevice
