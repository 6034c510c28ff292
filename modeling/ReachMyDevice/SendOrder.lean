import ReachMyDevice.Lib.Machine
import ReachMyDevice.Link

/-!
# What is given to a connection after its `Connected`

The session learns of a connection by its `Connected` and sends at once, the
viewer its only `Hello`. The log tells what was given since, and what of it was
handed to the data channel.
-/
namespace ReachMyDevice
open Machines Driver

variable {J : Type}

def DriverCmd.bytes? : DriverCmd J → Option Wire
  | .data bytes => some bytes
  | _ => none

/-- The messages handed to the data channel by a step. -/
def sends (out : List (DriverOut J)) : List Wire :=
  out.filterMap fun
    | .dataChannelSend _ bytes => some bytes
    | _ => none

/-- What a command hands to the data channel. -/
def sentBy (d : Driver J) : DriverLabel J → List Wire
  | .command cmd _ => if d.dataChannelId.isSome = true then cmd.bytes?.toList else []
  | _ => []

namespace Driver

theorem sends_map {α : Type} {f : α → DriverOut J} (l : List α)
    (emitted : ∀ a, ∃ ev, f a = .emit ev) : sends (l.map f) = [] := by
  induction l with
  | nil => rfl
  | cons a l ih =>
      obtain ⟨ev, same⟩ := emitted a
      rw [List.map_cons, same]
      exact ih

theorem sends_candidates (lines : List String) : sends (J := J) (lines.map emitCandidate) = [] :=
  sends_map lines fun _ => ⟨_, rfl⟩

theorem applySignal_sends (rtc : Rtc J) (d : Driver J) (msg : SignalMsg J) (outcome : SetRemote) :
    sends (applySignal rtc d msg outcome).2 = [] := by
  cases msg with
  | offer json =>
      simp only [applySignal]
      split
      · rfl
      · cases outcome with
        | rejected => rfl
        | unanswered => rfl
        | applied r => cases r <;> exact sends_candidates _
  | answer json =>
      simp only [applySignal]
      split
      · rfl
      · cases outcome <;> rfl
  | candidate line =>
      simp only [applySignal]
      split <;> rfl

theorem drainCommand_sends (rtc : Rtc J) (d : Driver J) (cmd : DriverCmd J) (outcome : SetRemote) :
    sends (drainCommand rtc d cmd outcome).2 = sentBy d (.command cmd outcome) := by
  cases cmd with
  | signal msg =>
      rw [drainCommand, applySignal_sends]
      simp [sentBy, DriverCmd.bytes?]
  | data bytes =>
      cases chan : d.dataChannelId <;>
        simp [drainCommand, sendData, chan, sentBy, sends, DriverCmd.bytes?]
  | video frame =>
      simp only [drainCommand]
      split <;> simp [sentBy, sends, DriverCmd.bytes?]
  | iceRestart => simp [drainCommand, sentBy, sends, DriverCmd.bytes?]
  | shutdown => simp [drainCommand, sentBy, sends, DriverCmd.bytes?]

theorem rebuilt_sends (rtc : Rtc J) (d : Driver J) (gathered : Option (List String))
    (outcome : SetRemote) : sends (rebuilt rtc d gathered outcome).2 = [] := by
  cases gathered with
  | none => rfl
  | some lines =>
      simp only [rebuilt]
      split
      · cases outcome.refusedAt <;> exact sends_candidates _
      · simp only [runViewer]
        cases d.pendingOffer with
        | none => rfl
        | some json => exact applySignal_sends rtc _ (.offer json) outcome

theorem drainEvent_sends (d : Driver J) (e : PcEvent) : sends (drainEvent d e).2 = [] := by
  cases e with
  | connectionStateChange s =>
      cases s with
      | new | connecting => rfl
      | connected | disconnected | failed | closed =>
          simp only [drainEvent]
          split <;> rfl
  | iceCandidate c =>
      cases c with
      | none => rfl
      | some line =>
          simp only [drainEvent]
          split <;> rfl
  | dataChannelOpen id => rfl
  | other => rfl

theorem drainRead_sends (d : Driver J) (m : RtcMessage) : sends (drainRead d m) = [] := by
  cases m with
  | rtpPacket samples =>
      simp only [drainRead]
      split
      · rfl
      · exact sends_map samples fun _ => ⟨_, rfl⟩
  | dataChannelMessage bytes => rfl
  | rtcpPacket wants => cases wants <;> rfl

/-- Only a `Data` command reaches the data channel, and only while one is open. -/
theorem step_sends {rtc : Rtc J} {d d' : Driver J} {l : DriverLabel J} {out : List (DriverOut J)}
    (h : step rtc d l = some (d', out)) : sends out = sentBy d l := by
  cases turn_of_step h with
  | command cmd outcome _ same =>
      have told := drainCommand_sends rtc d cmd outcome
      rwa [same] at told
  | event e _ same =>
      have told := drainEvent_sends d e
      rwa [same] at told
  | renews gathered outcome _ _ same =>
      have told := rebuilt_sends rtc d gathered outcome
      rwa [same] at told
  | read m _ => exact drainRead_sends d m
  | stays | established | commandsDone | readsDone | fault => rfl

end Driver

/-- A driver with what was given to its current connection. -/
structure SendLog (J : Type) where
  link : Link J
  /-- The queued commands that were given before the connection's `Connected`. -/
  early : Nat
  isOpen : Bool
  given : List Wire
  handed : List Wire

inductive SendLabel (J : Type)
  | driver (l : DriverLabel J)
  /-- Any thread gives the driver a command. -/
  | give (cmd : DriverCmd J)

namespace SendLog

def start (rtc : Rtc J) (isHost : Bool) (gathered : List String) : SendLog J where
  link := .start rtc isHost gathered
  early := 0
  isOpen := false
  given := []
  handed := []

/-- A connection that replaces the old one has been given nothing. -/
def renew (k : Link J) : SendLog J where
  link := k
  early := k.commands.length
  isOpen := false
  given := []
  handed := []

def observe (s : SendLog J) (k : Link J) (out : List (DriverOut J)) : SendLog J :=
  if k.driver.pc.id = s.link.driver.pc.id then
    { link := k
      early := s.early - (s.link.commands.length - k.commands.length)
      isOpen := s.isOpen || (emissions out).any TransportEvent.isConnected
      given := s.given
      handed := if s.early = 0 then s.handed ++ sends out else s.handed }
  else renew k

def give (s : SendLog J) (cmd : DriverCmd J) : SendLog J :=
  if s.isOpen = true then
    { s with link := s.link.post [cmd], given := s.given ++ cmd.bytes?.toList }
  else { s with link := s.link.post [cmd], early := s.early + 1 }

def step [DecidableEq J] (rtc : Rtc J) (s : SendLog J) : SendLabel J → Option (SendLog J)
  | .driver l => (s.link.advance rtc l).map fun r => s.observe r.1 r.2
  | .give cmd => some (s.give cmd)

def machine [DecidableEq J] (rtc : Rtc J) (isHost : Bool) : Machine (SendLog J) (SendLabel J) where
  init s := ∃ gathered, s = start rtc isHost gathered
  step := step rtc

/-- The messages given since `Connected` that are still queued. -/
def waiting (s : SendLog J) : List Wire := (s.link.commands.drop s.early).filterMap DriverCmd.bytes?

/-- Everything given since `Connected` was handed over once and in order, or still waits. -/
def InOrder (s : SendLog J) : Prop := s.handed ++ s.waiting = s.given

/-- A message given since `Connected` is drained once the data channel is open. -/
def ChannelOpen (s : SendLog J) : SendLabel J → Prop
  | .driver (.command (.data _) _) => s.early = 0 → s.link.driver.dataChannelId.isSome = true
  | _ => True

/-- What is early is queued, and before `Connected` all that is queued is early. -/
structure Closed (s : SendLog J) : Prop where
  bound : s.early ≤ s.link.commands.length
  early : s.isOpen = false → s.early = s.link.commands.length
  given : s.isOpen = false → s.given = []

variable {s s' : SendLog J} {rtc : Rtc J}

theorem Closed.give (h : Closed s) (cmd : DriverCmd J) : Closed (s.give cmd) := by
  have bound := h.bound
  cases isOpen : s.isOpen with
  | true =>
      constructor
      · simp only [SendLog.give, isOpen, if_true, Link.post, List.length_append]
        omega
      · simp [SendLog.give, isOpen]
      · simp [SendLog.give, isOpen]
  | false =>
      constructor
      · simp [SendLog.give, isOpen, h.early isOpen, Link.post]
      · simp [SendLog.give, isOpen, h.early isOpen, Link.post]
      · simp [SendLog.give, isOpen, h.given isOpen]

theorem renew_closed (k : Link J) : Closed (renew k) :=
  ⟨Nat.le_refl _, fun _ => rfl, fun _ => rfl⟩

theorem renew_inOrder (k : Link J) : InOrder (renew k) := by
  simp [InOrder, waiting, renew]

/-- A step takes the first command, or leaves the queue as it is. -/
theorem queue_cases [DecidableEq J] {k k' : Link J} {l : DriverLabel J} {out : List (DriverOut J)}
    (h : Link.Advanced rtc k l k' out) :
    (∃ cmd outcome, l = .command cmd outcome ∧ k.commands = cmd :: k'.commands) ∨
      (∀ cmd outcome, l ≠ .command cmd outcome) ∧ k'.commands = k.commands := by
  have taken := h.commands
  cases l with
  | command cmd outcome =>
      left
      refine ⟨cmd, outcome, rfl, ?_⟩
      cases queued : k.commands with
      | nil => simp [Link.takeCommand, queued] at taken
      | cons head rest =>
          simp only [Link.takeCommand, queued, Option.ite_none_right_eq_some,
            Option.some.injEq] at taken
          rw [taken.1, taken.2]
  | commandsDone =>
      right
      simp only [Link.takeCommand, Option.ite_none_right_eq_some, Option.some.injEq] at taken
      exact ⟨by simp, by rw [taken.1, taken.2]⟩
  | _ =>
      right
      exact ⟨by simp, (Option.some.inj taken).symm⟩

theorem same_id_of_command [DecidableEq J] {k k' : Link J} {cmd : DriverCmd J}
    {outcome : SetRemote} {out : List (DriverOut J)}
    (h : Link.Advanced rtc k (.command cmd outcome) k' out) :
    k'.driver.pc.id = k.driver.pc.id := by
  have told := step_emission h.step
  generalize emissions out = evs at told
  generalize k'.driver = d' at told ⊢
  cases told with
  | plain _ _ id _ => exact id

theorem Closed.observe [DecidableEq J] {k : Link J} {l : DriverLabel J} {out : List (DriverOut J)}
    (h : Closed s) (advanced : Link.Advanced rtc s.link l k out) : Closed (s.observe k out) := by
  simp only [SendLog.observe]
  split
  · have bound := h.bound
    constructor
    · rcases queue_cases advanced with ⟨cmd, outcome, -, queued⟩ | ⟨-, queued⟩
      · simp only [queued, List.length_cons] at bound ⊢
        omega
      · simp only [queued] at bound ⊢
        omega
    · intro closed
      simp only [Bool.or_eq_false_iff] at closed
      have early := h.early closed.1
      rcases queue_cases advanced with ⟨cmd, outcome, -, queued⟩ | ⟨-, queued⟩
      · simp only [early, queued, List.length_cons]
        omega
      · simp only [early, queued]
        omega
    · intro closed
      simp only [Bool.or_eq_false_iff] at closed
      exact h.given closed.1
  · exact renew_closed k

theorem InOrder.give (ordered : InOrder s) (h : Closed s) (cmd : DriverCmd J) :
    InOrder (s.give cmd) := by
  cases isOpen : s.isOpen with
  | true =>
      have later : waiting (s.give cmd) = s.waiting ++ cmd.bytes?.toList := by
        simp only [SendLog.give, isOpen, if_true, waiting, Link.post,
          List.drop_append_of_le_length h.bound, List.filterMap_append]
        cases cmd <;> rfl
      rw [InOrder, later, ← List.append_assoc]
      simp only [SendLog.give, isOpen, if_true]
      rw [ordered]
  | false =>
      have early := h.early isOpen
      have nothing : s.waiting = [] := by simp [waiting, early]
      have later : waiting (s.give cmd) = [] := by
        simp [SendLog.give, isOpen, waiting, Link.post, early]
      rw [InOrder, nothing] at ordered
      rw [InOrder, later]
      simp only [SendLog.give, isOpen, Bool.false_eq_true, if_false]
      exact ordered

/-- What a command hands over is what was waiting, exactly if it finds the channel open. -/
theorem sentBy_iff {d : Driver J} {cmd : DriverCmd J} {outcome : SetRemote} :
    sentBy d (.command cmd outcome) = cmd.bytes?.toList ↔
      (cmd.bytes?.isSome = true → d.dataChannelId.isSome = true) := by
  simp only [sentBy]
  cases cmd.bytes? with
  | none => simp
  | some bytes => split <;> simp_all

theorem InOrder.observe_iff [DecidableEq J] {k : Link J} {l : DriverLabel J}
    {out : List (DriverOut J)} (ordered : InOrder s)
    (advanced : Link.Advanced rtc s.link l k out) :
    InOrder (s.observe k out) ↔ ChannelOpen s (.driver l) := by
  have sent := step_sends advanced.step
  rcases queue_cases advanced with ⟨cmd, outcome, rfl, queued⟩ | ⟨other, queued⟩
  · have id := same_id_of_command advanced
    have met : ChannelOpen s (.driver (.command cmd outcome)) ↔
        (s.early = 0 → cmd.bytes?.isSome = true → s.link.driver.dataChannelId.isSome = true) := by
      cases cmd <;> simp [ChannelOpen, DriverCmd.bytes?]
    rw [met]
    cases early : s.early with
    | zero =>
        have before : s.waiting = cmd.bytes?.toList ++ k.commands.filterMap DriverCmd.bytes? := by
          simp only [waiting, early, queued, List.drop_zero]
          cases cmd <;> rfl
        have after : waiting (s.observe k out) = k.commands.filterMap DriverCmd.bytes? := by
          simp [SendLog.observe, id, waiting, early]
        have handed : (s.observe k out).handed = s.handed ++ sentBy s.link.driver (.command cmd outcome) := by
          simp [SendLog.observe, id, early, sent]
        have given : (s.observe k out).given = s.given := by simp [SendLog.observe, id]
        rw [InOrder, before, ← List.append_assoc] at ordered
        rw [InOrder, after, handed, given, ← ordered, List.append_cancel_right_eq,
          List.append_cancel_left_eq, sentBy_iff]
        simp
    | succ n =>
        refine iff_of_true ?_ (by simp)
        have after : waiting (s.observe k out) = s.waiting := by
          simp [SendLog.observe, id, waiting, early, queued]
        rw [InOrder, after]
        simp only [SendLog.observe, id, if_true, early, Nat.add_one_ne_zero, if_false]
        exact ordered
  · have met : ChannelOpen s (.driver l) := by
      cases l with
      | command cmd outcome => exact absurd rfl (other cmd outcome)
      | _ => trivial
    refine iff_of_true ?_ met
    have silent : sends out = [] := by
      rw [sent]
      cases l with
      | command cmd outcome => exact absurd rfl (other cmd outcome)
      | _ => rfl
    simp only [SendLog.observe]
    split
    · rw [InOrder, waiting] at ordered ⊢
      simp only [queued, silent, List.append_nil, ite_self, Nat.sub_self, Nat.sub_zero]
      exact ordered
    · exact renew_inOrder k

/-- Nothing given after `Connected` is lost while messages find the channel open, and the
first one that does not is lost. -/
theorem sent_in_order [DecidableEq J] {isHost : Bool}
    (run : (machine rtc isHost).ReachableBy ChannelOpen s) :
    InOrder s ∧ ∀ l s', SendLog.step rtc s l = some s' → (InOrder s' ↔ ChannelOpen s l) := by
  have stepped {s s' : SendLog J} {l : SendLabel J} (h : Closed s) (ordered : InOrder s)
      (taken : SendLog.step rtc s l = some s') : Closed s' ∧ (InOrder s' ↔ ChannelOpen s l) := by
    cases l with
    | driver l =>
        obtain ⟨⟨k, out⟩, advanced, rfl⟩ := Option.map_eq_some_iff.mp taken
        have advanced := Link.advance_cases advanced
        exact ⟨h.observe advanced, ordered.observe_iff advanced⟩
    | give cmd =>
        cases taken
        exact ⟨h.give cmd, iff_of_true (ordered.give h cmd) trivial⟩
  have both : Closed s ∧ InOrder s := by
    apply run.invariant
    · rintro s ⟨gathered, rfl⟩
      exact ⟨⟨Nat.le_refl _, fun _ => rfl, fun _ => rfl⟩, rfl⟩
    · rintro s l s' ⟨h, ordered⟩ met taken
      obtain ⟨after, iff⟩ := stepped h ordered taken
      exact ⟨after, iff.mpr met⟩
  exact ⟨both.2, fun l s' taken => (stepped both.1 both.2 taken).2⟩

instance (s : SendLog J) : Decidable (InOrder s) :=
  inferInstanceAs (Decidable (s.handed ++ s.waiting = s.given))

instance (s : SendLog J) (l : SendLabel J) : Decidable (ChannelOpen s l) :=
  match l with
  | .driver (.command (.data _) _) =>
    inferInstanceAs (Decidable (s.early = 0 → s.link.driver.dataChannelId.isSome = true))
  | .driver (.command (.video _) _) | .driver (.command (.signal _) _)
  | .driver (.command .iceRestart _) | .driver (.command .shutdown _) | .driver .commandsDone
  | .driver .established | .driver (.event _) | .driver (.eventsDone _ _) | .driver (.read _)
  | .driver .readsDone | .driver .fault | .give _ => .isTrue trivial

/-- The library does what is assumed of it. -/
def Library (rtc : Rtc J) (s : SendLog J) : SendLabel J → Prop
  | .driver l => libAllows rtc s.link.driver l
  | .give _ => True

instance (rtc : Rtc J) (s : SendLog J) (l : SendLabel J) : Decidable (Library rtc s l) :=
  match l with
  | .driver l => inferInstanceAs (Decidable (libAllows rtc s.link.driver l))
  | .give _ => .isTrue trivial

def viewerHello : Wire := encode (hello "viewer" .viewer 0)

/-- A viewer answers, and its connection comes up. -/
def viewerUp : List (SendLabel String) :=
  [.give (.signal (.offer "a=fingerprint:sha-256 00")),
    .driver (.command (.signal (.offer "a=fingerprint:sha-256 00")) (.applied none)),
    .driver .commandsDone, .driver .established,
    .driver (.event (.connectionStateChange .connected))]

def nextPass : List (SendLabel String) :=
  [.driver (.eventsDone none .rejected), .driver .readsDone]

/-- The channel opens in the pass in which `Connected` is reported. -/
theorem sent_in_order_hello : ∃ s : SendLog String,
    s.isOpen = true ∧ s.given = [viewerHello] ∧ s.handed = [viewerHello] ∧ InOrder s := by
  obtain ⟨s, run, isOpen, given, handed⟩ := Machine.exists_reachableBy (machine sampleRtc false)
    ChannelOpen ⟨[], rfl⟩
    (viewerUp ++ [.driver (.event (.dataChannelOpen 0)), .give (.data viewerHello)] ++ nextPass ++
      [.driver (.command (.data viewerHello) .rejected)])
    (fun s => s.isOpen = true ∧ s.given = [viewerHello] ∧ s.handed = [viewerHello]) (by decide)
  exact ⟨s, isOpen, given, handed, (sent_in_order run).1⟩

/-- The `Hello` is drained before the channel opens, and is gone once it is open. -/
theorem hello_is_dropped : ∃ s : SendLog String,
    (machine sampleRtc false).ReachableBy (Library sampleRtc) s ∧ s.isOpen = true ∧
      s.given = [viewerHello] ∧ s.handed = [] ∧ s.link.commands = [] ∧
      s.link.driver.connected = true ∧ s.link.driver.dataChannelId = some 0 ∧ ¬ InOrder s :=
  Machine.exists_reachableBy (machine sampleRtc false) _ ⟨[], rfl⟩
    (viewerUp ++ [.give (.data viewerHello)] ++ nextPass ++
      [.driver (.command (.data viewerHello) .rejected), .driver .commandsDone,
        .driver (.event (.dataChannelOpen 0))])
    _ (by decide)

end SendLog
end ReachMyDevice
