import ReachMyDevice.WebPage

/-!
# What the sessions of the page send

The Hello to the host waits for the relay's socket, and nothing else does. Each
control channel gets a Hello of its own, with the password once there is one.
-/
namespace ReachMyDevice
open Machines

namespace PageSession

/-- What is kept by all that happens to a session, as far as its events are allowed. -/
structure Stable (text : PagePayload → String) (ok : PageSession → SessionEvent → Prop)
    (password : Option String) (P : PageSession → Prop) : Prop where
  new : P ({ relay := ({}, {}) : PageSession }.sendWhenOpen text .hello)
  event : ∀ a b e, P a → ok a e → a.on text password e = some b → P b
  teardown : ∀ a, P a → P a.teardown
  pc : ∀ a state unhealthy, P a → P { a with pc := state, unhealthy }

end PageSession

namespace WebPage
open PageSession
variable {text : PagePayload → String} {ok : PageSession → SessionEvent → Prop}
  {P : PageSession → Prop} {s s' : WebPage} {n : Nat}

/-- Events come to sessions that allow them. -/
def Allowed (ok : PageSession → SessionEvent → Prop) (s : WebPage) : PageLabel → Prop
  | .event i e => ∀ a ∈ s.sessions[i]?, ok a e
  | _ => True

/-- The sessions from the `n`-th on. -/
def From (n : Nat) (P : PageSession → Prop) (s : WebPage) : Prop :=
  ∀ i a, n ≤ i → s.sessions[i]? = some a → P a

theorem From.modify (h : s.From n P) {i : Nat} {f : PageSession → PageSession}
    (kept : ∀ a, s.sessions[i]? = some a → n ≤ i → P a → P (f a)) :
    ({ s with sessions := s.sessions.modify i f } : WebPage).From n P := by
  intro j b late found
  obtain ⟨a, before, same⟩ := modify_getElem? found
  have was := h j a late before
  rw [same]
  split
  · rename_i here
    rw [← here] at before late
    exact kept a before late was
  · exact was

theorem From.set (h : s.From n P) {i : Nat} {b : PageSession} (new : n ≤ i → P b) :
    (s.setSession i b).From n P := by
  rw [setSession_eq_modify]
  apply h.modify
  intro a _ late _
  exact new late

theorem From.modifyCurrent (h : s.From n P) {f : PageSession → PageSession}
    (kept : ∀ a, P a → P (f a)) : (s.modifyCurrent f).From n P := by
  intro j b late found
  obtain ⟨a, before, same⟩ := modifyCurrent_getElem? found
  have was := h j a late before
  rw [same]
  split
  · exact kept a was
  · exact was

theorem From.of_sessions (h : s.From n P) (same : s'.sessions = s.sessions) : s'.From n P := by
  intro j b late found
  rw [same] at found
  exact h j b late found

theorem From.schedule (h : s.From n P) : s.scheduleReconnect.From n P :=
  h.of_sessions (scheduleReconnect_sessions s)

/-- Nothing is asked of the events. -/
theorem allowed_true (s : WebPage) (l : PageLabel) : s.Allowed (fun _ _ => True) l := by
  cases l with
  | event i e =>
      intro a _
      trivial
  | _ => trivial

/-- What a step keeps of the sessions from the `n`-th on. -/
theorem From.step {l : PageLabel} (stable : Stable text ok s.password P) (h : s.From n P)
    (allowed : s.Allowed ok l)
    (hello : ∀ a k pw, l = .submit pw → P a → P (a.sendHello k pw))
    (step : s.step text l = some s') : s'.From n P := by
  cases l with
  | visibilityChange hidden =>
      rw [← Option.some.inj step]
      have page : ({ s with hidden } : WebPage).From n P := h
      unfold visibilityChange
      split
      · exact page
      · split
        · exact page
        · apply From.schedule
          apply page.modifyCurrent
          intro a was
          exact stable.pc a a.pc true was
  | timer =>
      obtain ⟨-, step⟩ := Option.ite_none_left_eq_some.mp step
      rw [← Option.some.inj step]
      exact h
  | start =>
      obtain ⟨-, step⟩ := Option.ite_none_left_eq_some.mp step
      rw [← Option.some.inj step]
      have page : ({ s with spawned := s.spawned - 1 } : WebPage).From n P := h
      unfold connect
      split
      · exact page
      · exact page.modifyCurrent stable.teardown
  | iceServers k created =>
      obtain ⟨-, step⟩ := Option.ite_none_left_eq_some.mp step
      rw [← Option.some.inj step]
      cases created with
      | true => exact h
      | false => exact h.of_sessions (attemptFailed_sessions s k)
  | relayConnected k connected =>
      obtain ⟨-, step⟩ := Option.ite_none_left_eq_some.mp step
      rw [← Option.some.inj step]
      cases connected with
      | true =>
          intro i a late there
          rcases Slots.getElem?_concat_cases there with before | ⟨-, new⟩
          · exact h i a late before
          · rw [new]
            exact stable.new
      | false => exact h.of_sessions (attemptFailed_sessions s k)
  | pcState i state =>
      obtain ⟨a, found, step⟩ := Option.bind_eq_some_iff.mp step
      obtain ⟨-, step⟩ := Option.ite_none_left_eq_some.mp step
      split at step
      · rw [← Option.some.inj step]
        apply From.schedule
        apply h.set
        intro late
        exact stable.pc a state true (h i a late found)
      · rw [← Option.some.inj step]
        apply h.set
        intro late
        exact stable.pc a state a.unhealthy (h i a late found)
  | event i e =>
      obtain ⟨a, found, step⟩ := Option.bind_eq_some_iff.mp step
      obtain ⟨b, event, step⟩ := Option.map_eq_some_iff.mp step
      rw [← step]
      apply h.set
      intro late
      exact stable.event a b e (h i a late found) (allowed a found) event
  | helloAck i k passwordRequired =>
      obtain ⟨a, -, step⟩ := Option.bind_eq_some_iff.mp step
      obtain ⟨-, step⟩ := Option.ite_none_right_eq_some.mp step
      rw [← Option.some.inj step]
      split
      · exact h
      · exact h
  | submit pw =>
      rw [← Option.some.inj step]
      unfold submit
      split
      · exact h
      · split
        · exact h
        · rename_i i k _
          apply h.modify
          intro a _ _ was
          exact hello a k pw rfl was

end WebPage

namespace PageSession
variable {text : PagePayload → String} {s t : PageSession} {password : Option String}

/-- Only the Hello was passed to the socket before it opened. -/
structure Announces (text : PagePayload → String) (s : PageSession) : Prop where
  books : s.relay.1.Books s.relay.2
  before : s.relay.2.before = [text .hello]
  late : s.answering ≠ [] ∨ s.described = true → s.relay.2.opened = true

theorem Announces.sendWhenOpen (h : s.Announces text) (opened : s.relay.2.opened = true)
    (payload : PagePayload) : (s.sendWhenOpen text payload).Announces text := by
  have books := h.books.step (a := .sendWhenOpen (text payload)) rfl
  cases state : s.relay.1.readyState with
  | connecting =>
      have early := (h.books.waiting state).1
      exact absurd (early.symm.trans opened) Bool.false_ne_true
  | opened | closing | closed =>
      refine ⟨books, ?_, fun _ => ?_⟩
      · simp only [PageSession.sendWhenOpen, Passed.note, state]
        exact h.before
      · simp only [PageSession.sendWhenOpen, Passed.note, state]
        exact opened

/-- An event of the socket itself passes nothing to it. -/
theorem Announces.socket (h : s.Announces text) {label : SocketLabel}
    (own : ∀ text, label ≠ .sendWhenOpen text) (step : s.socket label = some t) :
    t.Announces text := by
  obtain ⟨relay, event, rfl⟩ := Option.map_eq_some_iff.mp step
  obtain ⟨event, noted⟩ := Machine.recording_step_iff.mp event
  have books := h.books.step event
  rw [← noted] at books
  refine ⟨books, ?_, ?_⟩
  · change relay.2.before = _
    rw [noted]
    cases label with
    | sendWhenOpen text => exact absurd rfl (own text)
    | openEvent | closing | closeEvent | close => exact h.before
  · intro busy
    change relay.2.opened = true
    rw [noted]
    cases label with
    | sendWhenOpen text => exact absurd rfl (own text)
    | openEvent => rfl
    | closing | closeEvent | close => exact h.late busy

theorem Announces.settled (h : s.Announces text) {k : Nat} {sdp : Option String}
    (step : s.settled text k sdp = some t) : t.Announces text := by
  obtain ⟨stage, found, step⟩ := Option.bind_eq_some_iff.mp step
  obtain ⟨inside, -⟩ := List.getElem?_eq_some_iff.mp found
  have opened : s.relay.2.opened = true :=
    h.late (.inl (List.ne_nil_of_length_pos (Nat.zero_lt_of_lt inside)))
  cases sdp with
  | none =>
      obtain rfl := Option.some.inj step
      exact ⟨h.books, h.before, fun _ => opened⟩
  | some sdp =>
      obtain ⟨-, step⟩ := Option.ite_none_left_eq_some.mp step
      cases stage with
      | setRemote | createAnswer =>
          obtain rfl := Option.some.inj step
          exact ⟨h.books, h.before, fun _ => opened⟩
      | setLocal answer =>
          obtain rfl := Option.some.inj step
          have handled : Announces text
              { s with described := true, answering := s.answering.eraseIdx k } :=
            ⟨h.books, h.before, fun _ => opened⟩
          exact handled.sendWhenOpen opened (.answer answer)

theorem announces_stable (text : PagePayload → String) (password : Option String) :
    Stable text (fun _ _ => True) password (Announces text) where
  new := by
    have first : ({} : RelaySocket).Books {} :=
      ⟨fun _ => ⟨rfl, rfl⟩, fun _ => rfl, nofun, fun _ => ⟨rfl, rfl⟩, nofun⟩
    refine ⟨first.step (a := .sendWhenOpen (text .hello)) rfl, rfl, ?_⟩
    intro busy
    rcases busy with busy | busy
    · exact absurd rfl busy
    · cases busy
  event := by
    intro a b e h _ step
    cases e with
    | offer =>
        obtain ⟨opened, step⟩ := Option.ite_none_left_eq_some.mp step
        have live := h.books.live (not_not.mp opened)
        split at step
        · obtain rfl := Option.some.inj step
          exact h
        · obtain rfl := Option.some.inj step
          exact ⟨h.books, h.before, fun _ => live⟩
    | settled k sdp => exact h.settled step
    | iceCandidate line =>
        obtain ⟨gathers, step⟩ := Option.ite_none_right_eq_some.mp step
        obtain rfl := Option.some.inj step
        exact h.sendWhenOpen (h.late (.inr gathers.2.2)) (.candidate line)
    | socketOpen | socketClosing | socketClosed =>
        apply h.socket _ step
        intro other
        nofun
    | dataChannel =>
        obtain ⟨-, step⟩ := Option.ite_none_right_eq_some.mp step
        obtain rfl := Option.some.inj step
        exact ⟨h.books, h.before, h.late⟩
    | channelOpen k =>
        obtain ⟨channel, -, step⟩ := Option.bind_eq_some_iff.mp step
        obtain ⟨-, step⟩ := Option.ite_none_left_eq_some.mp step
        split at step
        · obtain rfl := Option.some.inj step
          exact ⟨h.books, h.before, h.late⟩
        · obtain rfl := Option.some.inj step
          exact ⟨h.books, h.before, h.late⟩
  teardown a h := ⟨h.books.step (a := .close) rfl, h.before, h.late⟩
  pc a _ _ h := ⟨h.books, h.before, h.late⟩

theorem Announces.sendHello (h : s.Announces text) (k : Nat) (pw : String) :
    (s.sendHello k pw).Announces text := by
  unfold PageSession.sendHello
  split
  · split
    · exact ⟨h.books, h.before, h.late⟩
    · exact h
  · exact h

end PageSession

namespace WebPage
open PageSession
variable {text : PagePayload → String} {s : WebPage}

/-- Of what a session has for the host only the Hello comes before the relay's socket is open. So
the one handler that waits for the socket loses nothing: once it has opened, the Hello and all that
was passed while it was open have been sent, in order. -/
theorem page_relay_in_order (run : (machine text).Reachable s) (a : PageSession)
    (member : a ∈ s.sessions) :
    a.relay.2.before = [text .hello] ∧
      a.relay.1.sent =
        if a.relay.2.opened then text .hello :: a.relay.2.during else [] := by
  have all : s.From 0 (Announces text) := by
    apply run.invariant (I := fun t => t.From 0 (Announces text))
    · rintro t ⟨hidden, password, rfl⟩
      intro i b _ found
      exact (start_getElem? found).elim
    · intro t l t' h step
      apply h.step (announces_stable text t.password) (allowed_true t l) _ step
      intro b k pw _ was
      exact was.sendHello k pw
  obtain ⟨i, found⟩ := List.mem_iff_getElem?.mp member
  have h := all i a (Nat.zero_le i) found
  refine ⟨h.before, ?_⟩
  split
  · rename_i opened
    rw [h.books.kept opened, h.before]
    rfl
  · rename_i unopened
    exact (h.books.silent (Bool.eq_false_iff.mpr unopened)).1

/-- The candidate waits for the answer, and the answer for the socket. -/
theorem page_relay_in_order_answered : ∃ s, (machine sampleText).Reachable s ∧
    ∃ a, s.sessions = [a] ∧ a.relay.2.during = ["answer sdp", "candidate c"] ∧
      a.relay.1.sent =
        if a.relay.2.opened then sampleText .hello :: a.relay.2.during else [] := by
  obtain ⟨s, run, one, during⟩ := Machine.exists_reachableBy (machine sampleText)
    Machine.Always (s := start false none) ⟨false, none, rfl⟩
    [.start, .iceServers 0 true, .relayConnected 0 true, .event 0 .socketOpen, .event 0 .offer,
      .event 0 (.settled 0 (some "")), .event 0 (.settled 0 (some "sdp")),
      .event 0 (.settled 0 (some "")), .event 0 (.iceCandidate "c")]
    (fun s => s.sessions.length = 1 ∧
      s.sessions.map (·.relay.2.during) = [["answer sdp", "candidate c"]]) (by decide +kernel)
  obtain ⟨a, only⟩ := List.length_eq_one_iff.mp one
  rw [only] at during
  refine ⟨s, run, a, only, List.singleton_inj.mp during, (page_relay_in_order run a ?_).2⟩
  rw [only]
  exact List.mem_singleton_self a

end WebPage

namespace PageSession
variable {text : PagePayload → String} {s t : PageSession} {password : Option String}

/-- A channel arrives when all before it are open. -/
def InTurn (s : PageSession) (e : SessionEvent) : Prop :=
  e = .dataChannel → s.channels.all (·.isOpen)

instance (s : PageSession) (e : SessionEvent) : Decidable (s.InTurn e) :=
  inferInstanceAs (Decidable (_ → _))

/-- A channel that is open has had a Hello, and the input once. -/
def ControlChannel.Served (c : ControlChannel) : Prop :=
  if c.isOpen then c.attached = 1 ∧ c.hellos ≠ [] else c.attached = 0 ∧ c.hellos = []

/-- At most one channel is not open, and while there is one the Hello is armed. -/
structure Serves (s : PageSession) : Prop where
  served : ∀ c ∈ s.channels, ControlChannel.Served c
  waiting : s.channels.countP (!·.isOpen) ≤ 1
  armed : s.helloSent = true → s.channels.countP (!·.isOpen) = 0

theorem serves_channelOpen {k : Nat} (h : s.Serves) (step : s.channelOpen password k = some t) :
    t.Serves := by
  obtain ⟨c, found, step⟩ := Option.bind_eq_some_iff.mp step
  obtain ⟨shut, step⟩ := Option.ite_none_left_eq_some.mp step
  obtain ⟨-, shut⟩ := not_or.mp shut
  rw [Bool.not_eq_true] at shut
  have member := List.mem_of_getElem? found
  have waits : 0 < s.channels.countP (!·.isOpen) := by
    apply List.countP_pos_iff.mpr
    exact ⟨c, member, by rw [shut]; rfl⟩
  have before := h.served c member
  rw [ControlChannel.Served, shut, if_neg Bool.false_ne_true] at before
  split at step
  · rename_i sent
    exact absurd (h.armed sent) (Nat.ne_of_gt waits)
  · rw [← Option.some.inj step]
    have opened := Slots.countP_set found (b := ⟨true, c.hellos ++ [password], c.attached + 1⟩)
      (!·.isOpen)
    rw [shut] at opened
    change _ + 1 = _ + 0 at opened
    have waiting := h.waiting
    refine ⟨?_, ?_, ?_⟩
    · apply Slots.forall_mem_set h.served
      rw [ControlChannel.Served, if_pos rfl, before.1]
      exact ⟨rfl, List.append_ne_nil_of_right_ne_nil _ (List.cons_ne_nil _ _)⟩
    · dsimp only
      omega
    · intro _
      dsimp only
      omega

theorem serves_dataChannel (h : s.Serves) (turn : s.InTurn .dataChannel)
    (step : s.dataChannel = some t) : t.Serves := by
  obtain ⟨-, step⟩ := Option.ite_none_right_eq_some.mp step
  rw [← Option.some.inj step]
  have none_ : s.channels.countP (!·.isOpen) = 0 := by
    apply List.countP_eq_zero.mpr
    intro c member
    rw [List.all_eq_true.mp (turn rfl) c member]
    exact Bool.false_ne_true
  refine ⟨?_, ?_, ?_⟩
  · apply Slots.forall_mem_concat h.served
    exact ⟨rfl, rfl⟩
  · dsimp only
    rw [Slots.countP_concat, none_]
    exact Nat.le_refl 1
  · intro sent
    cases sent

theorem Serves.sendHello (h : s.Serves) (k : Nat) (pw : String) : (s.sendHello k pw).Serves := by
  unfold PageSession.sendHello
  split
  · rename_i c found
    split
    · rename_i alive
      have member := List.mem_of_getElem? found
      have same := Slots.countP_set found (b := ⟨c.isOpen, c.hellos ++ [some pw], c.attached⟩)
        (!·.isOpen)
      have count : (s.channels.set k ⟨c.isOpen, c.hellos ++ [some pw], c.attached⟩).countP
          (!·.isOpen) = s.channels.countP (!·.isOpen) := Nat.add_right_cancel same
      have before := h.served c member
      rw [ControlChannel.Served, if_pos alive.2] at before
      refine ⟨?_, ?_, ?_⟩
      · apply Slots.forall_mem_set h.served
        rw [ControlChannel.Served, if_pos alive.2]
        exact ⟨before.1, List.append_ne_nil_of_right_ne_nil _ (List.cons_ne_nil _ _)⟩
      · exact Nat.le_trans (Nat.le_of_eq count) h.waiting
      · intro sent
        exact count.trans (h.armed sent)
    · exact h
  · exact h

/-- Only its own events change a session's channels. -/
theorem on_channels {e : SessionEvent} (step : s.on text password e = some t) :
    (e = .dataChannel ∧ s.dataChannel = some t) ∨ (∃ k, s.channelOpen password k = some t) ∨
      t.channels = s.channels ∧ t.helloSent = s.helloSent := by
  cases e with
  | offer =>
      obtain ⟨-, step⟩ := Option.ite_none_left_eq_some.mp step
      split at step
      · obtain rfl := Option.some.inj step
        exact .inr (.inr ⟨rfl, rfl⟩)
      · obtain rfl := Option.some.inj step
        exact .inr (.inr ⟨rfl, rfl⟩)
  | settled k sdp =>
      obtain ⟨stage, -, step⟩ := Option.bind_eq_some_iff.mp step
      cases sdp with
      | none =>
          obtain rfl := Option.some.inj step
          exact .inr (.inr ⟨rfl, rfl⟩)
      | some sdp =>
          obtain ⟨-, step⟩ := Option.ite_none_left_eq_some.mp step
          cases stage with
          | setRemote | createAnswer | setLocal =>
              obtain rfl := Option.some.inj step
              exact .inr (.inr ⟨rfl, rfl⟩)
  | iceCandidate line =>
      obtain ⟨-, step⟩ := Option.ite_none_right_eq_some.mp step
      obtain rfl := Option.some.inj step
      exact .inr (.inr ⟨rfl, rfl⟩)
  | socketOpen | socketClosing | socketClosed =>
      obtain ⟨relay, -, rfl⟩ := Option.map_eq_some_iff.mp step
      exact .inr (.inr ⟨rfl, rfl⟩)
  | dataChannel => exact .inl ⟨rfl, step⟩
  | channelOpen k => exact .inr (.inl ⟨k, step⟩)

theorem serves_stable (text : PagePayload → String) (password : Option String) :
    Stable text InTurn password Serves where
  new := ⟨nofun, Nat.zero_le 1, nofun⟩
  event := by
    intro a b e h turn step
    rcases on_channels step with ⟨rfl, arrives⟩ | ⟨k, opens⟩ | ⟨same, sent⟩
    · exact serves_dataChannel h turn arrives
    · exact serves_channelOpen h opens
    · constructor
      · rw [same]
        exact h.served
      · rw [same]
        exact h.waiting
      · rw [same, sent]
        exact h.armed
  teardown a h := ⟨h.served, h.waiting, h.armed⟩
  pc a _ _ h := ⟨h.served, h.waiting, h.armed⟩

/-- Every Hello of the session carries the password. -/
def Authenticates (pw : String) (s : PageSession) : Prop :=
  ∀ c ∈ s.channels, ∀ hello ∈ c.hellos, hello = some pw

theorem authenticates_stable (text : PagePayload → String) (pw : String) :
    Stable text (fun _ _ => True) (some pw) (Authenticates pw) where
  new := nofun
  event := by
    intro a b e h _ step
    rcases on_channels step with ⟨-, arrives⟩ | ⟨k, opens⟩ | ⟨same, -⟩
    · obtain ⟨-, arrives⟩ := Option.ite_none_right_eq_some.mp arrives
      rw [← Option.some.inj arrives]
      apply Slots.forall_mem_concat h
      nofun
    · obtain ⟨c, found, opens⟩ := Option.bind_eq_some_iff.mp opens
      obtain ⟨-, opens⟩ := Option.ite_none_left_eq_some.mp opens
      have before := h c (List.mem_of_getElem? found)
      split at opens
      · rw [← Option.some.inj opens]
        exact Slots.forall_mem_set h before
      · rw [← Option.some.inj opens]
        exact Slots.forall_mem_set h (Slots.forall_mem_concat before rfl)
    · intro c member
      rw [same] at member
      exact h c member
  teardown _ h := h
  pc _ _ _ h := h

end PageSession

def PageLabel.submits : PageLabel → Bool
  | .submit _ => true
  | _ => false

namespace WebPage
open PageSession
variable {text : PagePayload → String} {s s' : WebPage}

/-- When no control channel arrives before those ahead of it are open, each one that is open has
had a Hello, and the input listeners once; one that is not has had neither. -/
theorem page_channels_served
    (run : (machine text).ReachableBy (fun t l => t.Allowed InTurn l) s) (a : PageSession)
    (member : a ∈ s.sessions) (c : ControlChannel) (arrived : c ∈ a.channels) :
    if c.isOpen then c.attached = 1 ∧ c.hellos ≠ [] else c.attached = 0 ∧ c.hellos = [] := by
  have all : s.From 0 Serves := by
    apply run.invariant (I := fun t => t.From 0 Serves)
    · rintro t ⟨hidden, password, rfl⟩
      intro i b _ found
      exact (start_getElem? found).elim
    · intro t l t' h allowed step
      apply h.step (serves_stable text t.password) allowed _ step
      intro b k pw _ was
      exact was.sendHello k pw
  obtain ⟨i, found⟩ := List.mem_iff_getElem?.mp member
  exact (all i a (Nat.zero_le i) found).served c arrived

theorem scheduleReconnect_password (s : WebPage) :
    s.scheduleReconnect.password = s.password := by
  unfold scheduleReconnect
  split <;> rfl

theorem attemptFailed_password (s : WebPage) (k : Nat) :
    (s.attemptFailed k).password = s.password := scheduleReconnect_password _

/-- Only the user changes the password. -/
theorem step_password {l : PageLabel} (other : l.submits = false)
    (step : s.step text l = some s') : s'.password = s.password := by
  cases l with
  | visibilityChange hidden =>
      rw [← Option.some.inj step]
      unfold visibilityChange
      split
      · rfl
      · split
        · rfl
        · exact scheduleReconnect_password _
  | timer =>
      obtain ⟨-, step⟩ := Option.ite_none_left_eq_some.mp step
      rw [← Option.some.inj step]
  | start =>
      obtain ⟨-, step⟩ := Option.ite_none_left_eq_some.mp step
      rw [← Option.some.inj step]
      unfold connect
      split <;> rfl
  | iceServers k created =>
      obtain ⟨-, step⟩ := Option.ite_none_left_eq_some.mp step
      rw [← Option.some.inj step]
      cases created with
      | true => rfl
      | false => exact attemptFailed_password s k
  | relayConnected k connected =>
      obtain ⟨-, step⟩ := Option.ite_none_left_eq_some.mp step
      rw [← Option.some.inj step]
      cases connected with
      | true => rfl
      | false => exact attemptFailed_password s k
  | pcState i state =>
      obtain ⟨a, -, step⟩ := Option.bind_eq_some_iff.mp step
      obtain ⟨-, step⟩ := Option.ite_none_left_eq_some.mp step
      split at step
      · rw [← Option.some.inj step]
        exact scheduleReconnect_password _
      · rw [← Option.some.inj step]
        rfl
  | event i e =>
      obtain ⟨a, -, step⟩ := Option.bind_eq_some_iff.mp step
      obtain ⟨b, -, step⟩ := Option.map_eq_some_iff.mp step
      rw [← step]
      rfl
  | helloAck i k passwordRequired =>
      obtain ⟨a, -, step⟩ := Option.bind_eq_some_iff.mp step
      obtain ⟨-, step⟩ := Option.ite_none_right_eq_some.mp step
      rw [← Option.some.inj step]
      split <;> rfl
  | submit pw => cases other

/-- Once the page has a password, every Hello of every session made after that carries it, until
the user gives another. -/
theorem page_reauthenticates {pw : String} (known : s.password = some pw)
    (rest : ((machine text).startingAt s).ReachableBy (fun _ l => l.submits = false) s')
    (i : Nat) (a : PageSession) (later : s.sessions.length ≤ i)
    (found : s'.sessions[i]? = some a) :
    ∀ c ∈ a.channels, ∀ hello ∈ c.hellos, hello = some pw := by
  have both : s'.password = some pw ∧ s'.From s.sessions.length (Authenticates pw) := by
    apply rest.invariant
      (I := fun t => t.password = some pw ∧ t.From s.sessions.length (Authenticates pw))
    · intro t here
      rw [here]
      refine ⟨known, ?_⟩
      intro j b late there
      have inside := (List.getElem?_eq_some_iff.mp there).1
      exact absurd inside (Nat.not_lt.mpr late)
    · intro t l t' h other step
      refine ⟨(step_password other step).trans h.1, ?_⟩
      have stable := authenticates_stable text pw
      rw [← h.1] at stable
      apply h.2.step stable (allowed_true t l) _ step
      intro b k given submitted _
      rw [submitted] at other
      cases other
  exact both.2 i a later found

instance (s : WebPage) (l : PageLabel) : Decidable (s.Allowed InTurn l) :=
  match l with
  | .event i e => inferInstanceAs (Decidable (∀ a ∈ s.sessions[i]?, a.InTurn e))
  | .visibilityChange _ | .timer | .start | .iceServers .. | .relayConnected .. | .pcState ..
  | .helloAck .. | .submit _ => .isTrue trivial

/-- The first channel is open and has had a second Hello, the next has only arrived. -/
def sampleChannels : List PageLabel :=
  [.start, .iceServers 0 true, .relayConnected 0 true, .event 0 .dataChannel,
    .event 0 (.channelOpen 0), .helloAck 0 0 true, .submit "pw", .event 0 .dataChannel]

theorem page_channels_served_two : ∃ s,
    (machine sampleText).ReachableBy (fun t l => t.Allowed InTurn l) s ∧
    ∃ a ∈ s.sessions, a.channels.map (·.hellos) = [[none, some "pw"], []] ∧
      ∀ c ∈ a.channels,
        if c.isOpen then c.attached = 1 ∧ c.hellos ≠ [] else c.attached = 0 ∧ c.hellos = [] := by
  obtain ⟨s, run, one, hellos⟩ := Machine.exists_reachableBy (machine sampleText)
    (fun t l => t.Allowed InTurn l) (s := start false none) ⟨false, none, rfl⟩ sampleChannels
    (fun s => s.sessions.length = 1 ∧
      s.sessions.map (·.channels.map (·.hellos)) = [[[none, some "pw"], []]]) (by decide +kernel)
  obtain ⟨a, only⟩ := List.length_eq_one_iff.mp one
  rw [only] at hellos
  have member : a ∈ s.sessions := by
    rw [only]
    exact List.mem_singleton_self a
  exact ⟨s, run, a, member, List.singleton_inj.mp hellos, page_channels_served run a member⟩

/-- The channel of the second session gets the password that the user gave in the first. -/
theorem page_reauthenticates_second : ∃ s s', s.password = some "pw" ∧
    ((machine sampleText).startingAt s).ReachableBy (fun _ l => l.submits = false) s' ∧
    ∃ a, s'.sessions[1]? = some a ∧ a.channels.map (·.hellos) = [[some "pw"]] ∧
      ∀ c ∈ a.channels, ∀ hello ∈ c.hellos, hello = some "pw" := by
  obtain ⟨s, -, known, one, goes_on⟩ := Machine.exists_reachableBy (machine sampleText)
    Machine.Always (s := start false none) ⟨false, none, rfl⟩ sampleChannels
    (fun s => s.password = some "pw" ∧ s.sessions.length = 1 ∧
      (((machine sampleText).startingAt s).exec (fun _ l => l.submits = false) s
        [.pcState 0 .failed, .timer, .start, .iceServers 0 true, .relayConnected 0 true,
          .event 1 .dataChannel, .event 1 (.channelOpen 0)]).any (fun s' =>
        decide (s'.sessions[1]?.map (·.channels.map (·.hellos)) = some [[some "pw"]])) = true)
    (by decide +kernel)
  obtain ⟨s', rest, hellos⟩ := Machine.exists_reachableBy ((machine sampleText).startingAt s)
    (fun _ l => l.submits = false) rfl _ _ goes_on
  obtain ⟨a, found, hellos⟩ := Option.map_eq_some_iff.mp hellos
  refine ⟨s, s', known, rest, a, found, hellos, ?_⟩
  exact page_reauthenticates known rest 1 a (Nat.le_of_eq one) found

end WebPage
end ReachMyDevice
