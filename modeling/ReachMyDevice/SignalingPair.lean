import ReachMyDevice.Lib.Machine
import ReachMyDevice.Negotiation

/-!
# A host and a viewer joined by a relay

Local signals wait in the event queue of a driver, travel through a queue of the
relay and wait among the commands of the other driver. The relay keeps the last
offer that passed it, and may replay it.
-/
namespace ReachMyDevice
open Machines Driver

variable {J : Type}

def commandSignals (cmds : List (DriverCmd J)) : List (SignalMsg J) :=
  cmds.filterMap fun
    | .signal msg => some msg
    | _ => none

def eventSignals (events : List (Pc J × TransportEvent J)) : List (SignalMsg J) :=
  events.filterMap fun e =>
    match e.2 with
    | .localSignal msg => some msg
    | _ => none

theorem commandSignals_append (l m : List (DriverCmd J)) :
    commandSignals (l ++ m) = commandSignals l ++ commandSignals m := List.filterMap_append

theorem eventSignals_append (l m : List (Pc J × TransportEvent J)) :
    eventSignals (l ++ m) = eventSignals l ++ eventSignals m := List.filterMap_append

theorem eventSignals_cons (e : Pc J × TransportEvent J) (rest : List (Pc J × TransportEvent J)) :
    eventSignals (e :: rest) = eventSignals [e] ++ eventSignals rest :=
  eventSignals_append [e] rest

theorem eventSignals_emitted (pc : Pc J) (out : List (DriverOut J)) :
    eventSignals ((emissions out).map (pc, ·)) = signaled out := by
  induction out with
  | nil => rfl
  | cons o out ih =>
      cases o with
      | emit ev => cases ev <;> simpa [emissions, signaled, eventSignals] using ih
      | writeRtp frame => exact ih
      | dataChannelSend id bytes => exact ih

namespace Link
variable [DecidableEq J] {rtc : Rtc J} {k k' : Link J} {l : DriverLabel J} {out : List (DriverOut J)}

theorem Advanced.eventSignals (h : Advanced rtc k l k' out) :
    eventSignals k'.events = ReachMyDevice.eventSignals k.events ++ signaled out := by
  rw [h.events, eventSignals_append]
  exact congrArg _ (eventSignals_emitted k'.driver.pc out)

/-- The message a step takes was the first of those that wait. -/
theorem Advanced.commandSignals (h : Advanced rtc k l k' out) :
    commandSignals k.commands = l.consumed.toList ++ ReachMyDevice.commandSignals k'.commands := by
  have taken := h.commands
  cases l with
  | command cmd outcome =>
      cases waiting : k.commands with
      | nil => simp [takeCommand, waiting] at taken
      | cons head rest =>
          simp only [takeCommand, waiting, Option.ite_none_right_eq_some, Option.some.injEq] at taken
          obtain ⟨rfl, rest⟩ := taken
          rw [← rest]
          cases head <;> rfl
  | commandsDone =>
      simp only [takeCommand, Option.ite_none_right_eq_some, Option.some.injEq] at taken
      rw [taken.1, ← taken.2]
      rfl
  | _ =>
      rw [← Option.some.inj taken]
      rfl

end Link

structure SignalingPair (J : Type) where
  host : Link J
  viewer : Link J
  toViewer : List (SignalMsg J)
  toHost : List (SignalMsg J)
  /-- The host's current offer, as far as the relay knows. -/
  cached : Option J

inductive PairLabel (J : Type)
  | host (l : DriverLabel J)
  | viewer (l : DriverLabel J)
  /-- The application gives a command that is no signaling message. -/
  | hostCommand (cmd : DriverCmd J)
  | viewerCommand (cmd : DriverCmd J)
  /-- The application takes an event, and sends it if it is a local signal. -/
  | hostSends
  | viewerSends
  | toViewer
  | toHost
  | replay

namespace SignalingPair

/-- Everything on its way from the host to the viewer's driver, the oldest first. -/
def downstream (s : SignalingPair J) : List (SignalMsg J) :=
  commandSignals s.viewer.commands ++ s.toViewer ++ eventSignals s.host.events

def upstream (s : SignalingPair J) : List (SignalMsg J) :=
  commandSignals s.host.commands ++ s.toHost ++ eventSignals s.viewer.events

def start (rtc : Rtc J) (hostGathered viewerGathered : List String) : SignalingPair J where
  host := .start rtc true hostGathered
  viewer := .start rtc false viewerGathered
  toViewer := []
  toHost := []
  cached := none

/-- The relay passes a message of the host on, and keeps an offer. -/
def relay (s : SignalingPair J) (msgs : List (SignalMsg J)) : SignalingPair J :=
  { s with toViewer := s.toViewer ++ msgs, cached := (offers msgs).getLast?.or s.cached }

variable [DecidableEq J]

def step (rtc : Rtc J) (s : SignalingPair J) : PairLabel J → Option (SignalingPair J)
  | .host l => (s.host.advance rtc l).map fun k => { s with host := k.1 }
  | .viewer l => (s.viewer.advance rtc l).map fun k => { s with viewer := k.1 }
  | .hostCommand cmd =>
    if commandSignals [cmd] = [] then some { s with host := s.host.post [cmd] } else none
  | .viewerCommand cmd =>
    if commandSignals [cmd] = [] then some { s with viewer := s.viewer.post [cmd] } else none
  | .hostSends =>
    match s.host.events with
    | [] => none
    | e :: rest => some (relay { s with host := { s.host with events := rest } } (eventSignals [e]))
  | .viewerSends =>
    match s.viewer.events with
    | [] => none
    | e :: rest => some {
        s with viewer := { s.viewer with events := rest }, toHost := s.toHost ++ eventSignals [e] }
  | .toViewer =>
    match s.toViewer with
    | [] => none
    | msg :: rest => some { s with toViewer := rest, viewer := s.viewer.post [.signal msg] }
  | .toHost =>
    match s.toHost with
    | [] => none
    | msg :: rest => some { s with toHost := rest, host := s.host.post [.signal msg] }
  | .replay => s.cached.map fun json => { s with toViewer := s.toViewer ++ [.offer json] }

def machine (rtc : Rtc J) : Machine (SignalingPair J) (PairLabel J) where
  init s := ∃ hostGathered viewerGathered, s = start rtc hostGathered viewerGathered
  step := step rtc

/-- The library makes an answer to every offer it takes. -/
def AnswersOffers (_ : SignalingPair J) : PairLabel J → Prop
  | .viewer l => l.Answers
  | _ => True

instance (s : SignalingPair J) (l : PairLabel J) : Decidable (AnswersOffers s l) := by
  unfold AnswersOffers
  split <;> infer_instance

/-- No signaling message or command is in flight, and no rebuild is wanted. -/
structure Quiescent (s : SignalingPair J) : Prop where
  hostCommands : s.host.commands = []
  viewerCommands : s.viewer.commands = []
  toViewer : s.toViewer = []
  toHost : s.toHost = []
  hostSignals : eventSignals s.host.events = []
  viewerSignals : eventSignals s.viewer.events = []
  hostRebuild : s.host.driver.rebuild = false
  viewerRebuild : s.viewer.driver.rebuild = false

instance (s : SignalingPair J) : Decidable s.Quiescent :=
  decidable_of_iff (s.host.commands = [] ∧ s.viewer.commands = [] ∧ s.toViewer = [] ∧
      s.toHost = [] ∧ eventSignals s.host.events = [] ∧ eventSignals s.viewer.events = [] ∧
      s.host.driver.rebuild = false ∧ s.viewer.driver.rebuild = false)
    ⟨fun ⟨a, b, c, d, e, f, g, h⟩ => ⟨a, b, c, d, e, f, g, h⟩,
      fun ⟨a, b, c, d, e, f, g, h⟩ => ⟨a, b, c, d, e, f, g, h⟩⟩

end SignalingPair

namespace Driver

/-- The offer a viewer has answered or will answer, as long as it hears no other. -/
def standing (d : Driver J) : List J :=
  match d.pendingOffer with
  | some json => [json]
  | none => if d.rebuild then [] else d.pc.remoteDescription.toList

structure HostReady (rtc : Rtc J) (d : Driver J) : Prop where
  isHost : d.isHost = true
  offered : d.pc.localDescription = some (rtc.createOffer d.pc.id)
  fresh : d.negotiatedOnce = false → d.pc.remoteDescription = none

structure ViewerReady (rtc : Rtc J) (d : Driver J) : Prop where
  isHost : d.isHost = false
  fresh : d.negotiatedOnce = false → d.pc.remoteDescription = none ∧ d.pendingOffer = none
  done : d.negotiatedOnce = true → ∃ json, Answered rtc d.pc.id json d
  pending : ∀ json, d.pendingOffer = some json → d.rebuild = true

theorem HostReady.step {rtc : Rtc J} {d d' : Driver J} {l : DriverLabel J}
    {sent : List (SignalMsg J)} (h : HostReady rtc d) (role : d'.isHost = d.isHost)
    (step : HostStep rtc d l d' sent) : HostReady rtc d' := by
  have isHost := role.trans h.isHost
  cases step with
  | quiet quiet =>
      obtain ⟨id, localDescription, remoteDescription, negotiatedOnce, -, -⟩ := quiet.same
      refine ⟨isHost, by rw [localDescription, id, h.offered], fun before => ?_⟩
      rw [remoteDescription]
      exact h.fresh (negotiatedOnce ▸ before)
  | again before => exact ⟨isHost, h.offered, h.fresh⟩
  | refused before => exact h
  | accepted before id localDescription remoteDescription now =>
      exact ⟨isHost, by rw [localDescription, id, h.offered], fun before => by simp [now] at before⟩
  | renewed id localDescription new offered answered =>
      exact ⟨isHost, localDescription, fun _ => new.remoteDescription⟩

theorem Unnegotiated.viewerReady {rtc : Rtc J} {d : Driver J} (h : Unnegotiated d)
    (isHost : d.isHost = false) : ViewerReady rtc d := by
  refine ⟨isHost, fun _ => ⟨h.remoteDescription, h.pendingOffer⟩, fun done => ?_, fun json pending => ?_⟩
  · simp [h.negotiatedOnce] at done
  · simp [h.pendingOffer] at pending

theorem Answered.viewerReady {rtc : Rtc J} {n : Nat} {json : J} {d : Driver J}
    (h : Answered rtc n json d) (isHost : d.isHost = false) (pending : d.pendingOffer = none) :
    ViewerReady rtc d := by
  refine ⟨isHost, fun before => ?_, fun _ => ⟨json, h.id.symm ▸ h⟩, fun other kept => ?_⟩
  · simp [h.negotiatedOnce] at before
  · simp [pending] at kept

theorem ViewerReady.step {rtc : Rtc J} {d d' : Driver J} {l : DriverLabel J}
    {sent : List (SignalMsg J)} (h : ViewerReady rtc d) (role : d'.isHost = d.isHost)
    (step : ViewerStep rtc d l d' sent) : ViewerReady rtc d' := by
  have isHost := role.trans h.isHost
  cases step with
  | quiet quiet =>
      obtain ⟨id, localDescription, remoteDescription, negotiatedOnce, pendingOffer, rebuild⟩ :=
        quiet.same
      refine ⟨isHost, fun before => ?_, fun done => ?_, fun json pending => ?_⟩
      · rw [remoteDescription, pendingOffer]
        exact h.fresh (negotiatedOnce ▸ before)
      · obtain ⟨json, answered⟩ := h.done (negotiatedOnce ▸ done)
        refine ⟨json, rfl, remoteDescription.trans answered.remoteDescription, ?_, done⟩
        rw [localDescription, id]
        exact answered.localDescription
      · exact rebuild (h.pending json (pendingOffer ▸ pending))
  | deferred before =>
      obtain ⟨json, answered⟩ := h.done before
      refine ⟨isHost, fun after => by simp [before] at after, fun _ => ?_, fun _ _ => rfl⟩
      exact ⟨json, answered.id, answered.remoteDescription, answered.localDescription, before⟩
  | refused before => exact h
  | answered before now rebuild pending offered told =>
      exact now.viewerReady isHost (pending.trans (h.fresh before).2)
  | waits new => exact new.viewerReady isHost
  | renewed pending now rebuild none_ offered told => exact now.viewerReady isHost none_

/-- A viewer's step only forgets offers in front of the last one it has heard. -/
theorem ViewerReady.standing {rtc : Rtc J} {d d' : Driver J} {l : DriverLabel J}
    {sent : List (SignalMsg J)} (h : ViewerReady rtc d) (step : ViewerStep rtc d l d' sent)
    (later : List J) :
    (standing d' ++ later) <:+ (standing d ++ (offers l.consumed.toList ++ later)) := by
  cases step with
  | quiet quiet =>
      have unheard : offers l.consumed.toList = [] := by
        cases taken : l.consumed with
        | none => rfl
        | some msg =>
            have := (quiet.consumed msg taken).1
            simp [offers, this]
      obtain ⟨-, -, remoteDescription, -, pendingOffer, rebuild⟩ := quiet.same
      rw [unheard, List.nil_append]
      simp only [Driver.standing, pendingOffer, remoteDescription]
      cases d.pendingOffer with
      | some json => exact List.suffix_refl _
      | none =>
          cases wanted : d.rebuild with
          | true => simp [rebuild wanted]
          | false =>
              cases d'.rebuild with
              | true => exact List.suffix_append _ _
              | false => exact List.suffix_refl _
  | deferred before => exact List.suffix_append _ _
  | refused before =>
      have none_ : Driver.standing d = [] := by
        simp [Driver.standing, (h.fresh before).1, (h.fresh before).2]
      rw [none_]
      exact List.suffix_append _ _
  | answered before now rebuild pending offered told =>
      refine List.IsSuffix.trans ?_ (List.suffix_append _ _)
      simp only [Driver.standing, pending, (h.fresh before).2, now.remoteDescription]
      split
      · exact List.suffix_append _ _
      · exact List.suffix_refl _
  | waits new =>
      have none_ : Driver.standing d' = [] := by
        simp [Driver.standing, new.pendingOffer, new.remoteDescription]
      rw [none_]
      exact List.IsSuffix.trans (List.suffix_append _ _) (List.suffix_append _ _)
  | renewed pending now rebuild none_ offered told =>
      simp only [Driver.standing, pending, none_, rebuild, now.remoteDescription]
      exact List.suffix_refl _

end Driver
namespace SignalingPair

theorem getLast?_of_suffix {α : Type} {l m : List α} (h : l <:+ m) :
    ∀ a ∈ l.getLast?, a ∈ m.getLast? := by
  obtain ⟨t, rfl⟩ := h
  intro a last
  rw [List.getLast?_append, Option.mem_def.mp last]
  rfl

/-- The answer of the viewer's connection is the last on its way, or was the last to reach
the host. -/
def Delivered (s : SignalingPair J) (answer : J) : Prop :=
  (answers s.upstream).getLast? = some answer ∨
    answers s.upstream = [] ∧ (s.host.driver.rebuild = true ∨
      s.host.driver.pc.remoteDescription = some answer ∨
      s.host.driver.pc.remoteDescription = none)

structure Agreement (rtc : Rtc J) (s : SignalingPair J) : Prop where
  host : HostReady rtc s.host.driver
  viewer : ViewerReady rtc s.viewer.driver
  noAnswer : answers s.downstream = []
  noOffer : offers s.upstream = []
  /-- The newest offer the relay knows or will know is that of the host's connection. -/
  relay : (s.cached.toList ++ offers (eventSignals s.host.events)).getLast? =
    some (rtc.createOffer s.host.driver.pc.id)
  /-- And so is the newest offer the viewer stands by or will hear. -/
  heard : ∀ json ∈ (standing s.viewer.driver ++ offers s.downstream).getLast?,
    json = rtc.createOffer s.host.driver.pc.id
  settled : offers s.downstream = [] → s.viewer.driver.rebuild = false →
    s.viewer.driver.negotiatedOnce = true →
    ∀ answer, s.viewer.driver.pc.localDescription = some answer → s.Delivered answer

/-- Moving messages along the way changes nothing. -/
theorem Agreement.moved {rtc : Rtc J} {s t : SignalingPair J} (h : Agreement rtc s)
    (host : t.host.driver = s.host.driver) (viewer : t.viewer.driver = s.viewer.driver)
    (downstream : t.downstream = s.downstream) (upstream : t.upstream = s.upstream)
    (relay : (t.cached.toList ++ offers (eventSignals t.host.events)).getLast? =
      (s.cached.toList ++ offers (eventSignals s.host.events)).getLast?) : Agreement rtc t := by
  refine ⟨host ▸ h.host, viewer ▸ h.viewer, downstream ▸ h.noAnswer, upstream ▸ h.noOffer,
    ?_, ?_, ?_⟩
  · rw [relay, host]
    exact h.relay
  · rw [viewer, downstream, host]
    exact h.heard
  · rw [viewer, downstream]
    intro unheard still done answer made
    have delivered := h.settled unheard still done answer made
    rw [Delivered, upstream, host]
    exact delivered

variable [DecidableEq J] {rtc : Rtc J} {s : SignalingPair J} {l : DriverLabel J} {k : Link J}
  {out : List (DriverOut J)}

theorem downstream_host (h : Link.Advanced rtc s.host l k out) :
    downstream { s with host := k } = s.downstream ++ signaled out := by
  simp only [downstream, h.eventSignals, List.append_assoc]

theorem upstream_host (h : Link.Advanced rtc s.host l k out) :
    s.upstream = l.consumed.toList ++ upstream { s with host := k } := by
  simp only [upstream, h.commandSignals, List.append_assoc]

theorem downstream_viewer (h : Link.Advanced rtc s.viewer l k out) :
    s.downstream = l.consumed.toList ++ downstream { s with viewer := k } := by
  simp only [downstream, h.commandSignals, List.append_assoc]

theorem upstream_viewer (h : Link.Advanced rtc s.viewer l k out) :
    upstream { s with viewer := k } = s.upstream ++ signaled out := by
  simp only [upstream, h.eventSignals, List.append_assoc]

/-- The host takes no offer, as none is on its way. -/
theorem Agreement.hostStep (h : Agreement rtc s) (moved : Link.Advanced rtc s.host l k out) :
    HostStep rtc s.host.driver l k.driver (signaled out) := by
  refine step_host moved.step h.host.isHost ?_
  rintro json outcome rfl
  have none_ := h.noOffer
  rw [upstream_host moved, offers_append] at none_
  simp [DriverLabel.consumed, offers, SignalMsg.offer?] at none_

theorem Agreement.viewerStep (h : Agreement rtc s) (moved : Link.Advanced rtc s.viewer l k out)
    (answering : l.Answers) : ViewerStep rtc s.viewer.driver l k.driver (signaled out) := by
  refine step_viewer moved.step h.viewer.isHost ?_ answering
  rintro json outcome rfl
  have none_ := h.noAnswer
  rw [downstream_viewer moved, answers_append] at none_
  simp [DriverLabel.consumed, answers, SignalMsg.answer?] at none_

/-- An answer that is consumed was either not the last, or is applied or asks for a rebuild. -/
theorem Delivered.host {answer : J} (h : s.Delivered answer)
    (moved : Link.Advanced rtc s.host l k out) (ready : HostReady rtc s.host.driver)
    (step : HostStep rtc s.host.driver l k.driver (signaled out))
    (same : k.driver.pc.id = s.host.driver.pc.id) : Delivered { s with host := k } answer := by
  have queue := upstream_host moved
  generalize signaled out = sent at step
  generalize after : k.driver = d' at step same
  have consumes (json : J) (taken : l.consumed = some (.answer json))
      (verdict : d'.rebuild = true ∨ d'.pc.remoteDescription = some json ∨
        d'.pc.remoteDescription = none) : Delivered { s with host := k } answer := by
    rw [Delivered, queue, taken] at h
    simp only [answers_append] at h
    rcases h with last | ⟨none_, -⟩
    · cases rest : answers (SignalingPair.upstream { s with host := k }) with
      | nil =>
          rw [rest] at last
          cases last
          refine .inr ⟨rest, ?_⟩
          simp only [after]
          exact verdict
      | cons x xs =>
          refine .inl ?_
          rw [rest] at last ⊢
          rw [List.getLast?_append, List.getLast?_cons] at last
          rw [List.getLast?_cons]
          exact last
    · simp [answers, SignalMsg.answer?] at none_
  cases step with
  | quiet quiet =>
      have unanswered : answers l.consumed.toList = [] := by
        cases taken : l.consumed with
        | none => rfl
        | some msg =>
            have := (quiet.consumed msg taken).2
            simp [answers, this]
      rw [Delivered, queue, answers_append, unanswered, List.nil_append] at h
      refine h.imp_right fun ⟨none_, verdict⟩ => ⟨none_, ?_⟩
      simp only [after, quiet.same.remoteDescription]
      exact verdict.imp_left quiet.same.rebuild
  | again before => exact consumes _ rfl (.inl rfl)
  | refused before => exact consumes _ rfl (.inr (.inr (ready.fresh before)))
  | accepted before id localDescription remoteDescription now =>
      exact consumes _ rfl (.inr (.inl remoteDescription))
  | renewed id localDescription new offered answered => omega

theorem Agreement.advanceHost (h : Agreement rtc s) (moved : Link.Advanced rtc s.host l k out) :
    Agreement rtc { s with host := k } := by
  have step := h.hostStep moved
  have ready := h.host.step (step_isHost moved.step) step
  have sentOffers : offers (downstream { s with host := k }) =
      offers s.downstream ++ offers (signaled out) := by rw [downstream_host moved, offers_append]
  have sentAnswers : answers (downstream { s with host := k }) =
      answers s.downstream ++ answers (signaled out) := by rw [downstream_host moved, answers_append]
  have emitted : offers (eventSignals k.events) =
      offers (eventSignals s.host.events) ++ offers (signaled out) := by
    rw [moved.eventSignals, offers_append]
  have noOffer : offers (upstream { s with host := k }) = [] := by
    have none_ := h.noOffer
    rw [upstream_host moved, offers_append] at none_
    exact (List.append_eq_nil_iff.mp none_).2
  by_cases renewed : offers (signaled out) = []
  · have kept : k.driver.pc.id = s.host.driver.pc.id ∧ answers (signaled out) = [] := by
      generalize signaled out = sent at step renewed
      generalize k.driver = d' at step
      cases step with
      | quiet quiet => exact ⟨quiet.same.id, quiet.sent.answers⟩
      | again before => exact ⟨rfl, rfl⟩
      | refused before => exact ⟨rfl, rfl⟩
      | accepted _ id _ _ _ => exact ⟨id, rfl⟩
      | renewed id _ _ offered _ => simp [offered] at renewed
    rw [renewed, List.append_nil] at sentOffers emitted
    refine ⟨ready, h.viewer, by rw [sentAnswers, h.noAnswer, kept.2]; rfl, noOffer, ?_, ?_, ?_⟩
    · simp only [emitted, kept.1]
      exact h.relay
    · simp only [sentOffers, kept.1]
      exact h.heard
    · rw [sentOffers]
      intro unheard still done answer made
      exact (h.settled unheard still done answer made).host moved h.host step kept.1
  · have offered : offers (signaled out) = [rtc.createOffer k.driver.pc.id] ∧
        answers (signaled out) = [] := by
      generalize signaled out = sent at step renewed
      generalize k.driver = d' at step
      cases step with
      | quiet quiet => exact absurd quiet.sent.offers renewed
      | again before => exact absurd rfl renewed
      | refused before => exact absurd rfl renewed
      | accepted _ _ _ _ _ => exact absurd rfl renewed
      | renewed _ _ _ offered answered => exact ⟨offered, answered⟩
    rw [offered.1] at sentOffers emitted
    refine ⟨ready, h.viewer, by rw [sentAnswers, h.noAnswer, offered.2]; rfl, noOffer, ?_, ?_, ?_⟩
    · simp only [emitted, ← List.append_assoc, List.getLast?_concat]
    · simp only [sentOffers, ← List.append_assoc, List.getLast?_concat]
      exact fun json last => (Option.some.inj last).symm
    · rw [sentOffers]
      exact fun unheard => absurd unheard (by simp)

theorem Agreement.advanceViewer (h : Agreement rtc s)
    (moved : Link.Advanced rtc s.viewer l k out) (answering : l.Answers) :
    Agreement rtc { s with viewer := k } := by
  have step := h.viewerStep moved answering
  have ready := h.viewer.step (step_isHost moved.step) step
  have heard : offers s.downstream =
      offers l.consumed.toList ++ offers (downstream { s with viewer := k }) := by
    rw [downstream_viewer moved, offers_append]
  have told : answers (upstream { s with viewer := k }) =
      answers s.upstream ++ answers (signaled out) := by rw [upstream_viewer moved, answers_append]
  have noAnswer : answers (downstream { s with viewer := k }) = [] := by
    have none_ := h.noAnswer
    rw [downstream_viewer moved, answers_append] at none_
    exact (List.append_eq_nil_iff.mp none_).2
  have noOffer : offers (upstream { s with viewer := k }) = [] := by
    rw [upstream_viewer moved, offers_append, h.noOffer, List.nil_append]
    generalize signaled out = sent at step
    generalize k.driver = d' at step
    cases step with
    | quiet quiet => exact quiet.sent.offers
    | answered _ _ _ _ offered _ => exact offered
    | renewed _ _ _ _ offered _ => exact offered
    | _ => rfl
  refine ⟨h.host, ready, noAnswer, noOffer, h.relay, ?_, ?_⟩
  · have suffix := h.viewer.standing step (offers (downstream { s with viewer := k }))
    rw [← heard] at suffix
    exact fun json last => h.heard json (getLast?_of_suffix suffix json last)
  · intro unheard still done answer made
    generalize signaled out = sent at step told
    generalize after : k.driver = d' at step
    simp only [after] at still done made
    have fresh (answered : answers sent = [answer]) : Delivered { s with viewer := k } answer := by
      refine .inl ?_
      rw [told, answered, List.getLast?_concat]
    cases step with
    | quiet quiet =>
        obtain ⟨-, localDescription, -, negotiatedOnce, -, rebuild⟩ := quiet.same
        have silent : offers s.downstream = [] := by
          have unconsumed : offers l.consumed.toList = [] := by
            cases taken : l.consumed with
            | none => rfl
            | some msg =>
                have := (quiet.consumed msg taken).1
                simp [offers, this]
          rw [heard, unconsumed, unheard]
          rfl
        have before : s.viewer.driver.rebuild = false :=
          Bool.eq_false_iff.mpr fun wanted => by simp [rebuild wanted] at still
        have delivered := h.settled silent before (negotiatedOnce ▸ done) answer
          (localDescription ▸ made)
        rw [quiet.sent.answers, List.append_nil] at told
        rw [Delivered, told]
        exact delivered
    | deferred before => cases still
    | refused before => simp [before] at done
    | answered before now _ _ _ answered =>
        rw [now.localDescription] at made
        exact fresh (Option.some.inj made ▸ answered)
    | waits new => simp [new.negotiatedOnce] at done
    | renewed _ now _ _ _ answered =>
        rw [now.localDescription] at made
        exact fresh (Option.some.inj made ▸ answered)

omit [DecidableEq J] in
theorem Agreement.relayed (h : Agreement rtc s) {e : Pc J × TransportEvent J}
    {rest : List (Pc J × TransportEvent J)} (queue : s.host.events = e :: rest) :
    Agreement rtc (SignalingPair.relay { s with host := { s.host with events := rest } }
      (eventSignals [e])) := by
  have split : eventSignals s.host.events = eventSignals [e] ++ eventSignals rest := by
    rw [queue, eventSignals_cons]
  refine h.moved rfl rfl ?_ rfl ?_
  · simp only [downstream, SignalingPair.relay, split, List.append_assoc]
  · simp only [SignalingPair.relay, split, offers_append]
    have one : (offers (eventSignals [e])).length ≤ 1 := by
      refine le_trans (List.length_filterMap_le _ _) (List.length_filterMap_le _ _)
    cases new : offers (eventSignals [e]) with
    | nil => simp
    | cons json more =>
        rw [new] at one
        have alone : more = [] := List.eq_nil_of_length_eq_zero (by simpa using one)
        rw [alone]
        cases s.cached <;> simp [List.getLast?_cons]

omit [DecidableEq J] in
theorem Agreement.replayed (h : Agreement rtc s) {json : J} (cached : s.cached = some json) :
    Agreement rtc { s with toViewer := s.toViewer ++ [.offer json] } := by
  have split : offers (downstream { s with toViewer := s.toViewer ++ [.offer json] }) =
      offers (commandSignals s.viewer.commands ++ s.toViewer) ++
        ([json] ++ offers (eventSignals s.host.events)) := by
    simp only [downstream, offers_append, List.append_assoc]
    rfl
  have newest : ([json] ++ offers (eventSignals s.host.events)).getLast? =
      some (rtc.createOffer s.host.driver.pc.id) := by
    have := h.relay
    rw [cached] at this
    exact this
  refine ⟨h.host, h.viewer, ?_, h.noOffer, h.relay, ?_, ?_⟩
  · have none_ := h.noAnswer
    simp only [downstream, answers_append] at none_ ⊢
    simp only [List.append_eq_nil_iff] at none_ ⊢
    exact ⟨⟨none_.1.1, none_.1.2, rfl⟩, none_.2⟩
  · rw [split, ← List.append_assoc, List.getLast?_append, newest]
    exact fun _ last => (Option.some.inj last).symm
  · rw [split]
    exact fun unheard => absurd unheard (by simp)

theorem Agreement.step {s' : SignalingPair J} {l : PairLabel J} (h : Agreement rtc s)
    (met : AnswersOffers s l) (taken : SignalingPair.step rtc s l = some s') : Agreement rtc s' := by
  cases l with
  | host l =>
      obtain ⟨⟨k, out⟩, advanced, rfl⟩ := Option.map_eq_some_iff.mp taken
      exact h.advanceHost (Link.advance_cases advanced)
  | viewer l =>
      obtain ⟨⟨k, out⟩, advanced, rfl⟩ := Option.map_eq_some_iff.mp taken
      exact h.advanceViewer (Link.advance_cases advanced) met
  | hostCommand cmd =>
      obtain ⟨other, same⟩ := Option.ite_none_right_eq_some.mp taken
      cases same
      refine h.moved rfl rfl rfl ?_ rfl
      have posted : commandSignals (s.host.commands ++ [cmd]) = commandSignals s.host.commands := by
        rw [commandSignals_append, other, List.append_nil]
      simp only [upstream, Link.post, posted]
  | viewerCommand cmd =>
      obtain ⟨other, same⟩ := Option.ite_none_right_eq_some.mp taken
      cases same
      refine h.moved rfl rfl ?_ rfl rfl
      have posted : commandSignals (s.viewer.commands ++ [cmd]) =
          commandSignals s.viewer.commands := by
        rw [commandSignals_append, other, List.append_nil]
      simp only [downstream, Link.post, posted]
  | hostSends =>
      simp only [SignalingPair.step] at taken
      split at taken
      · cases taken
      · rename_i queue
        cases taken
        exact h.relayed queue
  | viewerSends =>
      simp only [SignalingPair.step] at taken
      split at taken
      · cases taken
      · rename_i e rest queue
        cases taken
        refine h.moved rfl rfl rfl ?_ rfl
        have split : eventSignals s.viewer.events = eventSignals [e] ++ eventSignals rest := by
          rw [queue, eventSignals_cons]
        simp only [upstream, split, List.append_assoc]
  | toViewer =>
      simp only [SignalingPair.step] at taken
      split at taken
      · cases taken
      · rename_i msg rest queue
        cases taken
        refine h.moved rfl rfl ?_ rfl rfl
        simp only [downstream, Link.post, queue, commandSignals_append, List.append_assoc]
        rfl
  | toHost =>
      simp only [SignalingPair.step] at taken
      split at taken
      · cases taken
      · rename_i msg rest queue
        cases taken
        refine h.moved rfl rfl rfl ?_ rfl
        simp only [upstream, Link.post, queue, commandSignals_append, List.append_assoc]
        rfl
  | replay =>
      obtain ⟨json, cached, rfl⟩ := Option.map_eq_some_iff.mp taken
      exact h.replayed cached

omit [DecidableEq J] in
theorem start_agreement (rtc : Rtc J) (hostGathered viewerGathered : List String) :
    Agreement rtc (start rtc hostGathered viewerGathered) := by
  have trickle := trickle_candidates (J := J) hostGathered
  have emitted : eventSignals (start rtc hostGathered viewerGathered).host.events =
      .offer (rtc.createOffer 0) :: signaled (hostGathered.map emitCandidate) :=
    eventSignals_emitted _ _
  have down : (start rtc hostGathered viewerGathered).downstream =
      .offer (rtc.createOffer 0) :: signaled (hostGathered.map emitCandidate) := emitted
  have offered : offers (start rtc hostGathered viewerGathered).downstream =
      [rtc.createOffer 0] := by
    rw [down]
    exact congrArg _ trickle.offers
  refine ⟨⟨rfl, rfl, fun _ => rfl⟩, ?_, ?_, rfl, ?_, ?_, ?_⟩
  · exact Unnegotiated.viewerReady ⟨rfl, rfl, rfl, rfl⟩ rfl
  · rw [down]
    exact trickle.answers
  · rw [emitted]
    exact congrArg List.getLast? (congrArg (List.cons _) trickle.offers)
  · rw [offered]
    exact fun _ last => (Option.some.inj last).symm
  · rw [offered]
    exact fun unheard => absurd unheard (by simp)

/-- In every quiescent state in which both current connections have a remote description,
the viewer's answered the offer of the host's, and the host's applied that answer. -/
theorem quiescent_agrees {offer answer : J}
    (run : (machine rtc).ReachableBy AnswersOffers s) (quiet : s.Quiescent)
    (heard : s.viewer.driver.pc.remoteDescription = some offer)
    (applied : s.host.driver.pc.remoteDescription = some answer) :
    offer = rtc.createOffer s.host.driver.pc.id ∧
      s.host.driver.pc.localDescription = some offer ∧
      answer = rtc.createAnswer s.viewer.driver.pc.id offer ∧
      s.viewer.driver.pc.localDescription = some answer := by
  have agreement : Agreement rtc s := by
    refine run.invariant ?_ ?_
    · rintro s ⟨hostGathered, viewerGathered, rfl⟩
      exact start_agreement rtc hostGathered viewerGathered
    · intro s l s' h met taken
      exact h.step met taken
  have down : s.downstream = [] := by
    rw [downstream, quiet.viewerCommands, quiet.toViewer, quiet.hostSignals]
    rfl
  have up : s.upstream = [] := by
    rw [upstream, quiet.hostCommands, quiet.toHost, quiet.viewerSignals]
    rfl
  have done : s.viewer.driver.negotiatedOnce = true :=
    Bool.eq_true_of_not_eq_false fun before => by
      simp [(agreement.viewer.fresh before).1] at heard
  obtain ⟨json, answered⟩ := agreement.viewer.done done
  have same : json = offer := Option.some.inj (answered.remoteDescription.symm.trans heard)
  subst same
  have current : json = rtc.createOffer s.host.driver.pc.id := by
    refine agreement.heard json ?_
    have idle : s.viewer.driver.pendingOffer = none :=
      Option.eq_none_iff_forall_ne_some.mpr fun other pending =>
        absurd quiet.viewerRebuild (by simp [agreement.viewer.pending other pending])
    rw [down]
    simp [standing, idle, quiet.viewerRebuild, heard, offers]
  have delivered := agreement.settled (by rw [down]; rfl) quiet.viewerRebuild done _
    answered.localDescription
  have told : answer = rtc.createAnswer s.viewer.driver.pc.id json := by
    rcases delivered with last | ⟨-, wanted | same | none_⟩
    · simp [up, answers] at last
    · simp [quiet.hostRebuild] at wanted
    · exact Option.some.inj (applied.symm.trans same)
    · simp [applied] at none_
  exact ⟨current, agreement.host.offered.trans (congrArg some current.symm), told,
    answered.localDescription.trans (congrArg some told.symm)⟩

def pairRtc : Rtc (List Nat) where
  createOffer n := [n]
  createAnswer n offer := n :: offer
  sdp _ := none

/-- The host restarts before its first offer is answered, so that the stale answer is
applied to its second connection and the right one restarts it again. -/
def restartRun : List (PairLabel (List Nat)) :=
  [.hostCommand .iceRestart, .host (.command .iceRestart .rejected), .host .commandsDone,
    .host (.eventsDone (some []) (.applied none)), .hostSends, .hostSends, .toViewer, .toViewer,
    .viewer (.command (.signal (.offer [0])) (.applied none)),
    .viewer (.command (.signal (.offer [1])) .rejected), .viewer .commandsDone,
    .viewer (.eventsDone (some []) (.applied none)), .viewerSends, .viewerSends, .toHost, .toHost,
    .host (.command (.signal (.answer [0, 0])) (.applied none)),
    .host (.command (.signal (.answer [1, 1])) .rejected), .host .commandsDone,
    .host (.eventsDone (some []) (.applied none)), .hostSends, .toViewer,
    .viewer (.command (.signal (.offer [2])) .rejected), .viewer .commandsDone,
    .viewer (.eventsDone (some []) (.applied none)), .viewerSends, .toHost,
    .host (.command (.signal (.answer [2, 2])) (.applied none))]

theorem quiescent_agrees_restart : ∃ s : SignalingPair (List Nat),
    (machine pairRtc).ReachableBy AnswersOffers s ∧ s.host.driver.pc.id = 2 ∧
      s.host.driver.pc.localDescription = some [2] ∧
      s.viewer.driver.pc.localDescription = some [2, 2] := by
  obtain ⟨s, run, quiet, id, heard, applied⟩ := Machine.exists_reachableBy (machine pairRtc)
    AnswersOffers ⟨[], [], rfl⟩ restartRun
    (fun s => s.Quiescent ∧ s.host.driver.pc.id = 2 ∧
      s.viewer.driver.pc.remoteDescription = some [2] ∧
      s.host.driver.pc.remoteDescription = some [2, 2]) (by decide)
  obtain ⟨-, offered, -, answered⟩ := quiescent_agrees run quiet heard applied
  exact ⟨s, run, id, offered, answered⟩

end SignalingPair
end ReachMyDevice
