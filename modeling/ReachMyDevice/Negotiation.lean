import ReachMyDevice.Link

/-!
# What the two drivers tell each other of session descriptions

The host offers, the viewer answers. Each role has its own step lemma.
-/
namespace ReachMyDevice
variable {J : Type}

def SignalMsg.offer? : SignalMsg J → Option J
  | .offer json => some json
  | _ => none

def SignalMsg.answer? : SignalMsg J → Option J
  | .answer json => some json
  | _ => none

def offers (msgs : List (SignalMsg J)) : List J := msgs.filterMap SignalMsg.offer?
def answers (msgs : List (SignalMsg J)) : List J := msgs.filterMap SignalMsg.answer?

theorem offers_append (l m : List (SignalMsg J)) : offers (l ++ m) = offers l ++ offers m :=
  List.filterMap_append
theorem answers_append (l m : List (SignalMsg J)) : answers (l ++ m) = answers l ++ answers m :=
  List.filterMap_append

/-- The signaling messages among the outputs of a step. -/
def signaled (out : List (DriverOut J)) : List (SignalMsg J) :=
  out.filterMap fun
    | .emit (.localSignal msg) => some msg
    | _ => none

/-- Nothing but candidates. -/
structure Trickle (msgs : List (SignalMsg J)) : Prop where
  offers : offers msgs = []
  answers : answers msgs = []

theorem trickle_nil : Trickle (J := J) [] := ⟨rfl, rfl⟩

theorem trickle_candidates (lines : List String) :
    Trickle (signaled (J := J) (lines.map Driver.emitCandidate)) := by
  constructor <;> induction lines with
  | nil => rfl
  | cons line lines ih => exact ih

namespace DriverLabel

/-- The signaling message a step takes. -/
def consumed : DriverLabel J → Option (SignalMsg J)
  | .command (.signal msg) _ => some msg
  | _ => none

/-- Whoever takes an offer also makes an answer to it. -/
def Answers : DriverLabel J → Prop
  | .command _ outcome | .eventsDone _ outcome => outcome ≠ .unanswered
  | _ => True

instance (l : DriverLabel J) : Decidable l.Answers :=
  match l with
  | .command _ outcome | .eventsDone _ outcome => inferInstanceAs (Decidable (outcome ≠ .unanswered))
  | .commandsDone | .established | .event _ | .read _ | .readsDone | .fault => .isTrue trivial

end DriverLabel

namespace Driver

/-- Nothing of the negotiation changes, but that a rebuild may be wanted now. -/
structure SameNegotiation (d d' : Driver J) : Prop where
  id : d'.pc.id = d.pc.id
  localDescription : d'.pc.localDescription = d.pc.localDescription
  remoteDescription : d'.pc.remoteDescription = d.pc.remoteDescription
  negotiatedOnce : d'.negotiatedOnce = d.negotiatedOnce
  pendingOffer : d'.pendingOffer = d.pendingOffer
  rebuild : d.rebuild = true → d'.rebuild = true

theorem SameNegotiation.same (d : Driver J) : SameNegotiation d d :=
  ⟨rfl, rfl, rfl, rfl, rfl, fun wanted => wanted⟩

/-- The answer to `json` is set on the connection. -/
structure Answered (rtc : Rtc J) (n : Nat) (json : J) (d : Driver J) : Prop where
  id : d.pc.id = n
  remoteDescription : d.pc.remoteDescription = some json
  localDescription : d.pc.localDescription = some (rtc.createAnswer n json)
  negotiatedOnce : d.negotiatedOnce = true

/-- A step that takes neither an offer nor an answer and does not renew the connection. -/
structure Quiet (d : Driver J) (l : DriverLabel J) (d' : Driver J) (sent : List (SignalMsg J)) :
    Prop where
  consumed : ∀ msg ∈ l.consumed, msg.offer? = none ∧ msg.answer? = none
  same : SameNegotiation d d'
  sent : Trickle sent

theorem Quiet.unfed {d d' : Driver J} {l : DriverLabel J} {sent : List (SignalMsg J)}
    (nothing : l.consumed = none) (same : SameNegotiation d d') (trickle : Trickle sent) :
    Quiet d l d' sent := by
  refine ⟨fun msg taken => ?_, same, trickle⟩
  rw [nothing] at taken
  cases taken

theorem drainEvent_quiet (d : Driver J) (e : PcEvent) :
    Quiet d (.event e) (drainEvent d e).1 (signaled (drainEvent d e).2) := by
  refine .unfed rfl ?_ ?_
  · cases e with
    | connectionStateChange s =>
        cases s with
        | new | connecting => exact .same d
        | connected =>
            simp only [drainEvent]
            split <;> exact ⟨rfl, rfl, rfl, rfl, rfl, fun wanted => wanted⟩
        | disconnected | failed | closed =>
            simp only [drainEvent]
            split <;> exact ⟨rfl, rfl, rfl, rfl, rfl, fun wanted => by simp [wanted]⟩
    | iceCandidate c => cases c <;> exact .same d
    | dataChannelOpen id => exact ⟨rfl, rfl, rfl, rfl, rfl, fun wanted => wanted⟩
    | other => exact .same d
  · cases e with
    | connectionStateChange s =>
        cases s with
        | new | connecting => exact trickle_nil
        | connected | disconnected | failed | closed =>
            simp only [drainEvent]
            split <;> exact trickle_nil
    | iceCandidate c =>
        cases c with
        | none => exact trickle_nil
        | some line =>
            simp only [drainEvent]
            split
            · exact trickle_nil
            · exact trickle_candidates [line]
    | dataChannelOpen id => exact trickle_nil
    | other => exact trickle_nil

theorem drainRead_trickle (d : Driver J) (m : RtcMessage) : Trickle (signaled (drainRead d m)) := by
  cases m with
  | rtpPacket samples =>
      simp only [drainRead]
      split
      · exact trickle_nil
      · constructor <;> induction samples with
        | nil => rfl
        | cons s samples ih => exact ih
  | dataChannelMessage bytes => exact trickle_nil
  | rtcpPacket wants => cases wants <;> exact trickle_nil

/-- Every command but an offer or an answer. -/
theorem drainCommand_quiet (rtc : Rtc J) (d : Driver J) (cmd : DriverCmd J) (outcome : SetRemote)
    (other : ∀ json, cmd ≠ .signal (.offer json) ∧ cmd ≠ .signal (.answer json)) :
    Quiet d (.command cmd outcome) (drainCommand rtc d cmd outcome).1
      (signaled (drainCommand rtc d cmd outcome).2) := by
  cases cmd with
  | signal msg =>
      cases msg with
      | offer json => exact absurd rfl (other json).1
      | answer json => exact absurd rfl (other json).2
      | candidate line =>
          refine ⟨fun msg same => by cases same; exact ⟨rfl, rfl⟩, ?_, ?_⟩
          · simp only [drainCommand, applySignal]
            split <;> exact ⟨rfl, rfl, rfl, rfl, rfl, fun wanted => wanted⟩
          · simp only [drainCommand, applySignal]
            split <;> exact trickle_nil
  | video frame =>
      refine .unfed rfl (.same d) ?_
      simp only [drainCommand]
      split <;> exact trickle_nil
  | data bytes =>
      refine .unfed rfl (.same d) ?_
      simp only [drainCommand, sendData]
      split <;> exact trickle_nil
  | iceRestart =>
      refine .unfed rfl ?_ trickle_nil
      simp only [drainCommand]
      split
      · exact ⟨rfl, rfl, rfl, rfl, rfl, fun _ => rfl⟩
      · exact .same d
  | shutdown => exact .unfed rfl ⟨rfl, rfl, rfl, rfl, rfl, fun wanted => wanted⟩ trickle_nil

/-- A step that takes no offer, takes no answer and renews nothing. -/
theorem step_quiet {rtc : Rtc J} {d d' : Driver J} {l : DriverLabel J} {out : List (DriverOut J)}
    (h : step rtc d l = some (d', out))
    (other : ∀ json outcome, l ≠ .command (.signal (.offer json)) outcome ∧
      l ≠ .command (.signal (.answer json)) outcome)
    (kept : ∀ gathered outcome, l = .eventsDone gathered outcome → d.rebuild = true →
      gathered = none) : Quiet d l d' (signaled out) := by
  cases turn_of_step h with
  | command cmd outcome _ same =>
      have quiet := drainCommand_quiet rtc d cmd outcome fun json =>
        ⟨fun here => (other json outcome).1 (by rw [here]), fun here => (other json outcome).2 (by rw [here])⟩
      rw [same] at quiet
      exact quiet
  | event e _ same =>
      have quiet := drainEvent_quiet d e
      rw [same] at quiet
      exact quiet
  | renews gathered outcome _ wanted same =>
      cases kept gathered outcome rfl wanted
      cases same
      exact .unfed rfl ⟨rfl, rfl, rfl, rfl, rfl, fun wanted => wanted⟩ trickle_nil
  | read m _ => exact .unfed rfl (.same d) (drainRead_trickle d m)
  | stays | established | commandsDone | readsDone | fault =>
      exact .unfed rfl ⟨rfl, rfl, rfl, rfl, rfl, fun wanted => wanted⟩ trickle_nil

/-- A connection that has just been built, before anything is applied to it. -/
structure Unnegotiated (d : Driver J) : Prop where
  remoteDescription : d.pc.remoteDescription = none
  negotiatedOnce : d.negotiatedOnce = false
  rebuild : d.rebuild = false
  pendingOffer : d.pendingOffer = none

/-- What a host does: it takes answers, and makes an offer for each connection. -/
inductive HostStep (rtc : Rtc J) (d : Driver J) :
    DriverLabel J → Driver J → List (SignalMsg J) → Prop
  | quiet {l : DriverLabel J} {d' : Driver J} {sent : List (SignalMsg J)}
      (quiet : Quiet d l d' sent) : HostStep rtc d l d' sent
  /-- A second answer wants a rebuild. -/
  | again {json : J} {outcome : SetRemote} (before : d.negotiatedOnce = true) :
      HostStep rtc d (.command (.signal (.answer json)) outcome)
        { d with rebuild := true, pendingOffer := none } []
  | refused {json : J} {outcome : SetRemote} (before : d.negotiatedOnce = false) :
      HostStep rtc d (.command (.signal (.answer json)) outcome) d []
  | accepted {json : J} {refusedAt : Option Nat} {d' : Driver J}
      (before : d.negotiatedOnce = false) (id : d'.pc.id = d.pc.id)
      (localDescription : d'.pc.localDescription = d.pc.localDescription)
      (remoteDescription : d'.pc.remoteDescription = some json) (now : d'.negotiatedOnce = true) :
      HostStep rtc d (.command (.signal (.answer json)) (.applied refusedAt)) d' []
  | renewed {gathered : Option (List String)} {outcome : SetRemote} {d' : Driver J}
      {sent : List (SignalMsg J)} (id : d'.pc.id = d.pc.id + 1)
      (localDescription : d'.pc.localDescription = some (rtc.createOffer d'.pc.id))
      (new : Unnegotiated d') (offered : offers sent = [rtc.createOffer d'.pc.id])
      (answered : answers sent = []) : HostStep rtc d (.eventsDone gathered outcome) d' sent

theorem runHost_offers (rtc : Rtc J) (n : Nat) (lines : List String) (refusedAt : Option Nat) :
    (runHost rtc n lines refusedAt).1.pc.id = n ∧
      (runHost rtc n lines refusedAt).1.pc.localDescription = some (rtc.createOffer n) ∧
      Unnegotiated (runHost rtc n lines refusedAt).1 ∧
      offers (signaled (runHost rtc n lines refusedAt).2) = [rtc.createOffer n] ∧
      answers (signaled (runHost rtc n lines refusedAt).2) = [] := by
  cases refusedAt with
  | none =>
      have trickle := trickle_candidates (J := J) lines
      exact ⟨rfl, rfl, ⟨rfl, rfl, rfl, rfl⟩, congrArg _ trickle.offers, trickle.answers⟩
  | some r =>
      have trickle := trickle_candidates (J := J) (lines.take r)
      exact ⟨rfl, rfl, ⟨rfl, rfl, rfl, rfl⟩, congrArg _ trickle.offers, trickle.answers⟩

theorem step_host {rtc : Rtc J} {d d' : Driver J} {l : DriverLabel J} {out : List (DriverOut J)}
    (h : step rtc d l = some (d', out)) (host : d.isHost = true)
    (noOffer : ∀ json outcome, l ≠ .command (.signal (.offer json)) outcome) :
    HostStep rtc d l d' (signaled out) := by
  by_cases answer : ∃ json outcome, l = .command (.signal (.answer json)) outcome
  · obtain ⟨json, outcome, rfl⟩ := answer
    simp only [step, Option.ite_none_right_eq_some, Option.some.injEq, drainCommand, applySignal]
      at h
    obtain ⟨-, h⟩ := h
    cases before : d.negotiatedOnce with
    | true =>
        rw [if_pos before] at h
        cases h
        exact .again before
    | false =>
        simp only [before, Bool.false_eq_true, if_false] at h
        cases outcome with
        | rejected | unanswered =>
            cases h
            exact .refused before
        | applied refusedAt =>
            cases h
            exact .accepted before rfl rfl rfl rfl
  · by_cases renews : ∃ lines outcome, l = .eventsDone (some lines) outcome ∧ d.rebuild = true
    · obtain ⟨lines, outcome, rfl, wanted⟩ := renews
      simp only [step, Option.ite_none_right_eq_some, wanted, if_true, Option.some.injEq, rebuilt,
        host] at h
      obtain ⟨-, h⟩ := h
      obtain ⟨id, localDescription, new, offered, answered⟩ :=
        runHost_offers rtc (d.pc.id + 1) lines outcome.refusedAt
      rw [h] at id localDescription new offered answered
      exact .renewed id (id ▸ localDescription) new (id ▸ offered) answered
    · refine .quiet (step_quiet h (fun json outcome => ⟨noOffer json outcome, fun here =>
        answer ⟨json, outcome, here⟩⟩) fun gathered outcome here wanted => ?_)
      cases gathered with
      | none => rfl
      | some lines => exact absurd ⟨lines, outcome, here, wanted⟩ renews

/-- What a viewer does: it answers the first offer of each connection. -/
inductive ViewerStep (rtc : Rtc J) (d : Driver J) :
    DriverLabel J → Driver J → List (SignalMsg J) → Prop
  | quiet {l : DriverLabel J} {d' : Driver J} {sent : List (SignalMsg J)}
      (quiet : Quiet d l d' sent) : ViewerStep rtc d l d' sent
  /-- A second offer is kept for the next connection. -/
  | deferred {json : J} {outcome : SetRemote} (before : d.negotiatedOnce = true) :
      ViewerStep rtc d (.command (.signal (.offer json)) outcome)
        { d with rebuild := true, pendingOffer := some json } []
  | refused {json : J} {outcome : SetRemote} (before : d.negotiatedOnce = false) :
      ViewerStep rtc d (.command (.signal (.offer json)) outcome) d []
  | answered {json : J} {outcome : SetRemote} {d' : Driver J} {sent : List (SignalMsg J)}
      (before : d.negotiatedOnce = false) (now : Answered rtc d.pc.id json d')
      (rebuild : d'.rebuild = d.rebuild) (pendingOffer : d'.pendingOffer = d.pendingOffer)
      (offered : offers sent = []) (told : answers sent = [rtc.createAnswer d.pc.id json]) :
      ViewerStep rtc d (.command (.signal (.offer json)) outcome) d' sent
  | waits {gathered : Option (List String)} {outcome : SetRemote} {d' : Driver J}
      (new : Unnegotiated d') : ViewerStep rtc d (.eventsDone gathered outcome) d' []
  | renewed {gathered : Option (List String)} {outcome : SetRemote} {json : J} {d' : Driver J}
      {sent : List (SignalMsg J)} (pending : d.pendingOffer = some json)
      (now : Answered rtc (d.pc.id + 1) json d') (rebuild : d'.rebuild = false)
      (pendingOffer : d'.pendingOffer = none) (offered : offers sent = [])
      (told : answers sent = [rtc.createAnswer (d.pc.id + 1) json]) :
      ViewerStep rtc d (.eventsDone gathered outcome) d' sent

theorem answerOffer_answers (rtc : Rtc J) (d : Driver J) (json : J) (refusedAt : Option Nat) :
    Answered rtc d.pc.id json (answerOffer rtc (d.setRemote json) json refusedAt).1 ∧
      (answerOffer rtc (d.setRemote json) json refusedAt).1.rebuild = d.rebuild ∧
      (answerOffer rtc (d.setRemote json) json refusedAt).1.pendingOffer = d.pendingOffer ∧
      offers (signaled (answerOffer rtc (d.setRemote json) json refusedAt).2) = [] ∧
      answers (signaled (answerOffer rtc (d.setRemote json) json refusedAt).2) =
        [rtc.createAnswer d.pc.id json] := by
  cases refusedAt with
  | none =>
      have trickle := trickle_candidates (J := J) d.pendingLocalCandidates
      exact ⟨⟨rfl, rfl, rfl, rfl⟩, rfl, rfl, trickle.offers, congrArg _ trickle.answers⟩
  | some n =>
      have trickle := trickle_candidates (J := J) (d.pendingLocalCandidates.take n)
      exact ⟨⟨rfl, rfl, rfl, rfl⟩, rfl, rfl, trickle.offers, congrArg _ trickle.answers⟩

theorem step_viewer {rtc : Rtc J} {d d' : Driver J} {l : DriverLabel J} {out : List (DriverOut J)}
    (h : step rtc d l = some (d', out)) (viewer : d.isHost = false)
    (noAnswer : ∀ json outcome, l ≠ .command (.signal (.answer json)) outcome)
    (answering : l.Answers) : ViewerStep rtc d l d' (signaled out) := by
  by_cases offer : ∃ json outcome, l = .command (.signal (.offer json)) outcome
  · obtain ⟨json, outcome, rfl⟩ := offer
    simp only [step, Option.ite_none_right_eq_some, Option.some.injEq, drainCommand, applySignal]
      at h
    obtain ⟨-, h⟩ := h
    cases before : d.negotiatedOnce with
    | true =>
        rw [if_pos before] at h
        cases h
        exact .deferred before
    | false =>
        simp only [before, Bool.false_eq_true, if_false] at h
        cases outcome with
        | rejected =>
            cases h
            exact .refused before
        | unanswered => exact absurd rfl answering
        | applied refusedAt =>
            have h : answerOffer rtc (d.setRemote json) json refusedAt = (d', out) := h
            obtain ⟨now, rebuild, pending, offered, told⟩ := answerOffer_answers rtc d json refusedAt
            rw [h] at now rebuild pending offered told
            exact .answered before now rebuild pending offered told
  · by_cases renews : ∃ lines outcome, l = .eventsDone (some lines) outcome ∧ d.rebuild = true
    · obtain ⟨lines, outcome, rfl, wanted⟩ := renews
      simp only [step, Option.ite_none_right_eq_some, wanted, if_true, Option.some.injEq, rebuilt,
        viewer, Bool.false_eq_true, if_false, runViewer] at h
      obtain ⟨-, h⟩ := h
      cases pending : d.pendingOffer with
      | none =>
          simp only [pending] at h
          cases h
          exact .waits ⟨rfl, rfl, rfl, rfl⟩
      | some json =>
          simp only [pending, applySignal, fresh, Bool.false_eq_true, if_false] at h
          cases outcome with
          | rejected =>
              cases h
              exact .waits ⟨rfl, rfl, rfl, rfl⟩
          | unanswered => exact absurd rfl answering
          | applied refusedAt =>
              have h : answerOffer rtc
                  ((fresh false (freshPc (d.pc.id + 1) none) lines).setRemote json) json refusedAt =
                    (d', out) := h
              obtain ⟨now, rebuild, kept, offered, told⟩ := answerOffer_answers rtc
                (fresh false (freshPc (d.pc.id + 1) none) lines) json refusedAt
              rw [h] at now rebuild kept offered told
              exact .renewed pending now rebuild kept offered told
    · refine .quiet (step_quiet h (fun json outcome => ⟨fun here => offer ⟨json, outcome, here⟩,
        noAnswer json outcome⟩) fun gathered outcome here wanted => ?_)
      cases gathered with
      | none => rfl
      | some lines => exact absurd ⟨lines, outcome, here, wanted⟩ renews

end Driver
end ReachMyDevice
