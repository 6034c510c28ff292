import ReachMyDevice.Driver

/-!
# What a step of the driver can do

A step is a `Turn`. Every invariant over the driver is derived from the turns, and
from what they emit and what they learn; it unfolds no step of its own.
-/
namespace ReachMyDevice
namespace Driver
variable {J : Type}

/-- One turn of the loop: what a driver that can take a label makes of it. -/
inductive Turn (rtc : Rtc J) (d : Driver J) :
    DriverLabel J → Driver J → List (DriverOut J) → Prop
  | command {d' : Driver J} {out : List (DriverOut J)} (cmd : DriverCmd J) (outcome : SetRemote)
      (phase : d.phase = .commands) (same : drainCommand rtc d cmd outcome = (d', out)) :
      Turn rtc d (.command cmd outcome) d' out
  | commandsDone (phase : d.phase = .commands) :
      Turn rtc d .commandsDone { d with phase := .events } []
  | established (running : d.phase ≠ .stopped) :
      Turn rtc d .established { d with pc := { d.pc with established := true } } []
  | event {d' : Driver J} {out : List (DriverOut J)} (e : PcEvent) (phase : d.phase = .events)
      (same : drainEvent d e = (d', out)) : Turn rtc d (.event e) d' out
  | renews {d' : Driver J} {out : List (DriverOut J)} (gathered : Option (List String))
      (outcome : SetRemote) (phase : d.phase = .events) (wanted : d.rebuild = true)
      (same : rebuilt rtc d gathered outcome = (d', out)) :
      Turn rtc d (.eventsDone gathered outcome) d' out
  | stays (gathered : Option (List String)) (outcome : SetRemote) (phase : d.phase = .events)
      (unwanted : d.rebuild = false) :
      Turn rtc d (.eventsDone gathered outcome) { d with phase := .reads } []
  | read (m : RtcMessage) (phase : d.phase = .reads) : Turn rtc d (.read m) d (drainRead d m)
  | readsDone (phase : d.phase = .reads) : Turn rtc d .readsDone { d with phase := .commands } []
  | fault (phase : d.phase = .reads) : Turn rtc d .fault { d with phase := .stopped } []

theorem turn_of_step {rtc : Rtc J} {d d' : Driver J} {l : DriverLabel J}
    {out : List (DriverOut J)} (h : step rtc d l = some (d', out)) : Turn rtc d l d' out := by
  cases l with
  | command cmd outcome =>
      simp only [step, Option.ite_none_right_eq_some, Option.some.injEq] at h
      exact .command cmd outcome h.1 h.2
  | event e =>
      simp only [step, Option.ite_none_right_eq_some, Option.some.injEq] at h
      exact .event e h.1 h.2
  | eventsDone gathered outcome =>
      simp only [step, Option.ite_none_right_eq_some] at h
      obtain ⟨phase, h⟩ := h
      split at h
      · rename_i wanted
        exact .renews gathered outcome phase wanted (Option.some.inj h)
      · rename_i unwanted
        cases h
        exact .stays gathered outcome phase (Bool.eq_false_iff.mpr unwanted)
  | established =>
      simp only [step, Option.ite_none_left_eq_some, Option.some.injEq, Prod.mk.injEq] at h
      obtain ⟨running, rfl, rfl⟩ := h
      exact .established running
  | read m =>
      simp only [step, Option.ite_none_right_eq_some, Option.some.injEq, Prod.mk.injEq] at h
      obtain ⟨phase, rfl, rfl⟩ := h
      exact .read m phase
  | commandsDone =>
      simp only [step, Option.ite_none_right_eq_some, Option.some.injEq, Prod.mk.injEq] at h
      obtain ⟨phase, rfl, rfl⟩ := h
      exact .commandsDone phase
  | readsDone =>
      simp only [step, Option.ite_none_right_eq_some, Option.some.injEq, Prod.mk.injEq] at h
      obtain ⟨phase, rfl, rfl⟩ := h
      exact .readsDone phase
  | fault =>
      simp only [step, Option.ite_none_right_eq_some, Option.some.injEq, Prod.mk.injEq] at h
      obtain ⟨phase, rfl, rfl⟩ := h
      exact .fault phase

/-- What neither a signaling message nor an application command touches. -/
structure SameConnection (d d' : Driver J) : Prop where
  isHost : d'.isHost = d.isHost
  id : d'.pc.id = d.pc.id
  established : d'.pc.established = d.pc.established
  connected : d'.connected = d.connected
  dataChannelId : d'.dataChannelId = d.dataChannelId

theorem SameConnection.same (d : Driver J) : SameConnection d d := ⟨rfl, rfl, rfl, rfl, rfl⟩

theorem answerOffer_sameConnection (rtc : Rtc J) (d : Driver J) (json : J) (r : Option Nat) :
    SameConnection d (answerOffer rtc (d.setRemote json) json r).1 := by
  cases r <;> exact ⟨rfl, rfl, rfl, rfl, rfl⟩

theorem applySignal_sameConnection (rtc : Rtc J) (d : Driver J) (msg : SignalMsg J)
    (outcome : SetRemote) : SameConnection d (applySignal rtc d msg outcome).1 := by
  cases msg with
  | offer json =>
      simp only [applySignal]
      split
      · exact ⟨rfl, rfl, rfl, rfl, rfl⟩
      · cases outcome with
        | rejected => exact .same d
        | unanswered => exact ⟨rfl, rfl, rfl, rfl, rfl⟩
        | applied r => exact answerOffer_sameConnection rtc d json r
  | answer json =>
      simp only [applySignal]
      split
      · exact ⟨rfl, rfl, rfl, rfl, rfl⟩
      · cases outcome <;> exact ⟨rfl, rfl, rfl, rfl, rfl⟩
  | candidate line =>
      simp only [applySignal]
      split <;> exact ⟨rfl, rfl, rfl, rfl, rfl⟩

theorem drainCommand_sameConnection (rtc : Rtc J) (d : Driver J) (cmd : DriverCmd J)
    (outcome : SetRemote) : SameConnection d (drainCommand rtc d cmd outcome).1 := by
  cases cmd with
  | signal msg => exact applySignal_sameConnection rtc d msg outcome
  | iceRestart =>
      simp only [drainCommand]
      split <;> exact ⟨rfl, rfl, rfl, rfl, rfl⟩
  | video frame => exact .same d
  | data bytes => exact .same d
  | shutdown => exact ⟨rfl, rfl, rfl, rfl, rfl⟩

/-- The events among the outputs of a step. -/
def emissions (out : List (DriverOut J)) : List (TransportEvent J) :=
  out.filterMap fun
    | .emit ev => some ev
    | _ => none

def Plain (out : List (DriverOut J)) : Prop := ∀ ev ∈ emissions out, ev.plain = true

theorem plain_nil : Plain (J := J) [] := fun _ member => nomatch member

theorem plain_cons {o : DriverOut J} {out : List (DriverOut J)}
    (head : ∀ ev, o = .emit ev → ev.plain = true) (tail : Plain out) : Plain (o :: out) := by
  intro ev member
  cases o with
  | emit e =>
      rcases List.mem_cons.mp member with rfl | member
      · exact head _ rfl
      · exact tail ev member
  | writeRtp frame => exact tail ev member
  | dataChannelSend id bytes => exact tail ev member

theorem plain_map {α : Type} {f : α → DriverOut J} (l : List α)
    (each : ∀ a ev, f a = .emit ev → ev.plain = true) : Plain (l.map f) := by
  induction l with
  | nil => exact plain_nil
  | cons a l ih => exact plain_cons (each a) ih

theorem plain_candidates (lines : List String) : Plain (J := J) (lines.map emitCandidate) :=
  plain_map lines fun _ _ same => by
    cases same
    rfl

theorem plain_localSignal (msg : SignalMsg J) (lines : List String) :
    Plain (.emit (.localSignal msg) :: lines.map emitCandidate) :=
  plain_cons (fun _ same => by cases same; rfl) (plain_candidates lines)

theorem applySignal_plain (rtc : Rtc J) (d : Driver J) (msg : SignalMsg J)
    (outcome : SetRemote) : Plain (applySignal rtc d msg outcome).2 := by
  cases msg with
  | offer json =>
      simp only [applySignal]
      split
      · exact plain_nil
      · cases outcome with
        | rejected => exact plain_nil
        | unanswered => exact plain_nil
        | applied r => cases r <;> exact plain_localSignal _ _
  | answer json =>
      simp only [applySignal]
      split
      · exact plain_nil
      · cases outcome <;> exact plain_nil
  | candidate line =>
      simp only [applySignal]
      split <;> exact plain_nil

theorem drainCommand_plain (rtc : Rtc J) (d : Driver J) (cmd : DriverCmd J)
    (outcome : SetRemote) : Plain (drainCommand rtc d cmd outcome).2 := by
  cases cmd with
  | signal msg => exact applySignal_plain rtc d msg outcome
  | video frame =>
      simp only [drainCommand]
      split
      · exact plain_cons (fun _ same => nomatch same) plain_nil
      · exact plain_nil
  | data bytes =>
      simp only [drainCommand, sendData]
      split
      · exact plain_nil
      · exact plain_cons (fun _ same => nomatch same) plain_nil
  | iceRestart => exact plain_nil
  | shutdown => exact plain_nil

theorem rebuilt_plain (rtc : Rtc J) (d : Driver J) (gathered : Option (List String))
    (outcome : SetRemote) : Plain (rebuilt rtc d gathered outcome).2 := by
  cases gathered with
  | none => exact plain_nil
  | some lines =>
      simp only [rebuilt]
      split
      · cases outcome.refusedAt <;> exact plain_localSignal _ _
      · simp only [runViewer]
        cases d.pendingOffer with
        | none => exact plain_nil
        | some json => exact applySignal_plain rtc _ (.offer json) outcome

theorem first_closed (rtc : Rtc J) (isHost : Bool) (gathered : List String) :
    Plain (first rtc isHost gathered).2 ∧ (first rtc isHost gathered).1.connected = false := by
  cases isHost with
  | true => exact ⟨plain_localSignal _ _, rfl⟩
  | false => exact ⟨plain_nil, rfl⟩

/-- A rebuild that succeeds starts from a connection of its own. -/
structure Renewed (d d' : Driver J) : Prop where
  isHost : d'.isHost = d.isHost
  id : d'.pc.id = d.pc.id + 1
  established : d'.pc.established = false
  connected : d'.connected = false
  dataChannelId : d'.dataChannelId = none

theorem rebuilt_renewed (rtc : Rtc J) (d : Driver J) (lines : List String) (outcome : SetRemote) :
    Renewed d (rebuilt rtc d (some lines) outcome).1 := by
  simp only [rebuilt]
  split
  · rename_i host
    cases outcome.refusedAt <;> exact ⟨host.symm, rfl, rfl, rfl, rfl⟩
  · rename_i viewer
    have notHost : d.isHost = false := Bool.eq_false_iff.mpr viewer
    simp only [runViewer]
    cases d.pendingOffer with
    | none => exact ⟨notHost.symm, rfl, rfl, rfl, rfl⟩
    | some json =>
        have kept := applySignal_sameConnection rtc
          (fresh false (freshPc (d.pc.id + 1) none) lines) (.offer json) outcome
        exact ⟨kept.isHost.trans notHost.symm, kept.id, kept.established, kept.connected,
          kept.dataChannelId⟩

/-- All that a step tells of the connection: what it emits, and the connection it leaves. -/
inductive EmissionStep (d : Driver J) : DriverLabel J → Driver J → List (TransportEvent J) → Prop
  | plain {l : DriverLabel J} {d' : Driver J} {evs : List (TransportEvent J)}
      (silent : ∀ ev ∈ evs, ev.plain = true) (isHost : d'.isHost = d.isHost)
      (id : d'.pc.id = d.pc.id) (connected : d'.connected = d.connected) : EmissionStep d l d' evs
  | opens {e : PcEvent} (before : d.connected = false) :
      EmissionStep d (.event e) { d with connected := true } [.connected]
  | closes {e : PcEvent} (before : d.connected = true) :
      EmissionStep d (.event e) { d with connected := false, rebuild := true } [.disconnected]
  | reads (bytes : Wire) : EmissionStep d (.read (.dataChannelMessage bytes)) d [.data bytes]
  | renewed {gathered : Option (List String)} {outcome : SetRemote} {d' : Driver J}
      {evs : List (TransportEvent J)} (wanted : d.rebuild = true)
      (silent : ∀ ev ∈ evs, ev.plain = true) (new : Renewed d d') :
      EmissionStep d (.eventsDone gathered outcome) d' evs

theorem drainEvent_emission (d : Driver J) (e : PcEvent) :
    EmissionStep d (.event e) (drainEvent d e).1 (emissions (drainEvent d e).2) := by
  cases e with
  | connectionStateChange s =>
      cases connected : d.connected with
      | false =>
          cases s with
          | connected =>
              simp only [drainEvent, connected]
              exact .opens connected
          | new | connecting | disconnected | failed | closed =>
              simp only [drainEvent, connected]
              exact .plain plain_nil rfl rfl rfl
      | true =>
          cases s with
          | disconnected | failed | closed =>
              simp only [drainEvent, connected, if_true]
              exact .closes connected
          | new | connecting | connected =>
              simp only [drainEvent, connected, if_true]
              exact .plain plain_nil rfl rfl rfl
  | iceCandidate c =>
      cases c with
      | none => exact .plain plain_nil rfl rfl rfl
      | some line =>
          refine .plain ?_ rfl rfl rfl
          simp only [drainEvent]
          split
          · exact plain_nil
          · exact plain_candidates [line]
  | dataChannelOpen id => exact .plain plain_nil rfl rfl rfl
  | other => exact .plain plain_nil rfl rfl rfl

theorem drainRead_emission (d : Driver J) (m : RtcMessage) :
    EmissionStep d (.read m) d (emissions (drainRead d m)) := by
  cases m with
  | rtpPacket samples =>
      refine .plain ?_ rfl rfl rfl
      simp only [drainRead]
      split
      · exact plain_nil
      · exact plain_map samples fun _ _ same => by
          cases same
          rfl
  | dataChannelMessage bytes => exact .reads bytes
  | rtcpPacket wants =>
      refine .plain ?_ rfl rfl rfl
      cases wants with
      | true => exact plain_cons (fun _ same => by cases same; rfl) plain_nil
      | false => exact plain_nil

theorem step_emission {rtc : Rtc J} {d d' : Driver J} {l : DriverLabel J}
    {out : List (DriverOut J)} (h : step rtc d l = some (d', out)) :
    EmissionStep d l d' (emissions out) := by
  cases turn_of_step h with
  | command cmd outcome _ same =>
      have kept := drainCommand_sameConnection rtc d cmd outcome
      have silent := drainCommand_plain rtc d cmd outcome
      rw [same] at kept silent
      exact .plain silent kept.isHost kept.id kept.connected
  | event e _ same =>
      have := drainEvent_emission d e
      rwa [same] at this
  | renews gathered outcome _ wanted same =>
      cases gathered with
      | none =>
          cases same
          exact .plain plain_nil rfl rfl rfl
      | some lines =>
          have silent := rebuilt_plain rtc d (some lines) outcome
          have new := rebuilt_renewed rtc d lines outcome
          rw [same] at silent new
          exact .renewed wanted silent new
  | read m _ => exact drainRead_emission d m
  | stays | established | commandsDone | readsDone | fault => exact .plain plain_nil rfl rfl rfl

theorem step_isHost {rtc : Rtc J} {d d' : Driver J} {l : DriverLabel J}
    {out : List (DriverOut J)} (h : step rtc d l = some (d', out)) : d'.isHost = d.isHost := by
  have told := step_emission h
  generalize emissions out = evs at told
  cases told with
  | plain _ isHost _ _ => exact isHost
  | renewed _ _ new => exact new.isHost
  | opens _ => rfl
  | closes _ => rfl
  | reads _ => rfl

/-- The description a message brings to a driver of that role. -/
def describes (isHost : Bool) : SignalMsg J → Option J
  | .offer json => if isHost then none else some json
  | .answer json => if isHost then some json else none
  | .candidate _ => none

/-- The descriptions of peers a driver holds: the one applied, and an offer kept for the
connection that a viewer builds next. -/
def descriptions (d : Driver J) : List J :=
  d.pc.remoteDescription.toList ++ if d.isHost then [] else d.pendingOffer.toList

theorem mem_descriptions {d : Driver J} {json : J} : json ∈ d.descriptions ↔
    d.pc.remoteDescription = some json ∨ (d.isHost = false ∧ d.pendingOffer = some json) := by
  cases role : d.isHost <;> simp [descriptions, role]

theorem applySignal_descriptions {rtc : Rtc J} {d : Driver J} {msg : SignalMsg J}
    {outcome : SetRemote} (allowed : libAllows rtc d (.command (.signal msg) outcome)) {json : J}
    (held : json ∈ (applySignal rtc d msg outcome).1.descriptions) :
    json ∈ d.descriptions ∨ describes d.isHost msg = some json := by
  have role := (applySignal_sameConnection rtc d msg outcome).isHost
  rw [mem_descriptions, role] at held
  rw [mem_descriptions]
  cases msg with
  | candidate line =>
      simp only [applySignal] at held
      split at held <;> exact .inl held
  | offer offer =>
      simp only [applySignal] at held
      split at held
      · rcases held with applied | ⟨viewer, pending⟩
        · exact .inl (.inl applied)
        · exact .inr (by simpa [describes, viewer] using pending)
      · cases outcome with
        | rejected => exact .inl held
        | unanswered =>
            have viewer : d.isHost = false := Bool.eq_false_iff.mpr fun host => by cases allowed host
            rcases held with applied | kept
            · exact .inr (by simpa [describes, viewer, setRemote] using applied)
            · exact .inl (.inr kept)
        | applied r =>
            have viewer : d.isHost = false := Bool.eq_false_iff.mpr fun host => by cases allowed host
            rcases held with applied | kept
            · refine .inr ?_
              cases r <;>
                simpa [describes, viewer, answerOffer, setRemote, flushRemoteCandidates,
                  addRemoteCandidates] using applied
            · refine .inl (.inr ?_)
              cases r <;> exact kept
  | answer answer =>
      simp only [applySignal] at held
      split at held
      · rcases held with applied | ⟨-, pending⟩
        · exact .inl (.inl applied)
        · cases pending
      · cases outcome with
        | rejected => exact .inl held
        | unanswered => exact .inl held
        | applied r =>
            have host : d.isHost = true := by
              by_contra viewer
              cases allowed (Bool.eq_false_iff.mpr viewer)
            rcases held with applied | kept
            · exact .inr (by
                simpa [describes, host, setRemote, flushRemoteCandidates, addRemoteCandidates]
                  using applied)
            · exact .inl (.inr kept)

theorem drainCommand_descriptions {rtc : Rtc J} {d : Driver J} {cmd : DriverCmd J}
    {outcome : SetRemote} (allowed : libAllows rtc d (.command cmd outcome)) {json : J}
    (held : json ∈ (drainCommand rtc d cmd outcome).1.descriptions) :
    json ∈ d.descriptions ∨ ∃ msg, cmd = .signal msg ∧ describes d.isHost msg = some json := by
  cases cmd with
  | signal msg =>
      exact (applySignal_descriptions allowed held).imp_right fun brought => ⟨msg, rfl, brought⟩
  | iceRestart =>
      simp only [drainCommand] at held
      split at held <;> exact .inl held
  | video frame => exact .inl held
  | data bytes => exact .inl held
  | shutdown => exact .inl held

theorem rebuilt_descriptions {rtc : Rtc J} {d : Driver J} {gathered : Option (List String)}
    {outcome : SetRemote} {json : J} (held : json ∈ (rebuilt rtc d gathered outcome).1.descriptions) :
    json ∈ d.descriptions := by
  cases gathered with
  | none => exact held
  | some lines =>
      simp only [rebuilt] at held
      split at held
      · cases refused : outcome.refusedAt <;>
          simp [runHost, refused, mem_descriptions, fresh, freshPc] at held
      · rename_i viewer
        have viewer : d.isHost = false := Bool.eq_false_iff.mpr viewer
        simp only [runViewer] at held
        cases pending : d.pendingOffer with
        | none => simp [pending, mem_descriptions, fresh, freshPc] at held
        | some offer =>
            rw [pending] at held
            have allowed : libAllows rtc (fresh false (freshPc (d.pc.id + 1) none) lines)
                (.command (.signal (.offer offer)) outcome) := fun host => nomatch host
            rcases applySignal_descriptions allowed held with old | brought
            · simp [mem_descriptions, fresh, freshPc] at old
            · have same : offer = json := by simpa [describes, fresh] using brought
              exact mem_descriptions.mpr (.inr ⟨viewer, same ▸ pending⟩)

theorem drainEvent_descriptions (d : Driver J) (e : PcEvent) :
    (drainEvent d e).1.descriptions = d.descriptions := by
  cases e with
  | connectionStateChange s =>
      cases s with
      | new | connecting => rfl
      | connected | disconnected | failed | closed =>
          simp only [drainEvent]
          split <;> rfl
  | iceCandidate c => cases c <;> rfl
  | dataChannelOpen id => rfl
  | other => rfl

/-- A driver learns of a peer only by the signaling messages of its role. -/
theorem step_descriptions {rtc : Rtc J} {d d' : Driver J} {l : DriverLabel J}
    {out : List (DriverOut J)} (allowed : libAllows rtc d l)
    (h : step rtc d l = some (d', out)) {json : J} (held : json ∈ d'.descriptions) :
    json ∈ d.descriptions ∨
      ∃ msg outcome, l = .command (.signal msg) outcome ∧ describes d.isHost msg = some json := by
  cases turn_of_step h with
  | command cmd outcome _ same =>
      have held : json ∈ (drainCommand rtc d cmd outcome).1.descriptions := by
        rw [same]
        exact held
      exact (drainCommand_descriptions allowed held).imp_right fun ⟨msg, here, brought⟩ =>
        ⟨msg, outcome, by rw [here], brought⟩
  | event e _ same =>
      have unchanged := drainEvent_descriptions d e
      rw [same] at unchanged
      exact .inl (unchanged ▸ held)
  | renews gathered outcome _ _ same => exact .inl (rebuilt_descriptions (by rw [same]; exact held))
  | stays | read | established | commandsDone | readsDone | fault => exact .inl held

end Driver
end ReachMyDevice
