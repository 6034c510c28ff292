import ReachMyDevice.Lib.Machine

/-!
# The browser's relay socket

A text is sent at once when the socket is open, and else left to its one
`onopen` handler. `readyState` changes in the page's task that fires the open
event, so no call falls between the two.
-/
namespace ReachMyDevice
open Machines

/-- `WebSocket.readyState`. -/
inductive ReadyState
  | connecting
  | opened
  | closing
  | closed
  deriving DecidableEq

structure RelaySocket where
  readyState : ReadyState := .connecting
  /-- The text that the `onopen` handler sends. -/
  onopen : Option String := none
  /-- What left the page. -/
  sent : List String := []

inductive SocketLabel
  | sendWhenOpen (text : String)
  | openEvent
  /-- The other side closes, or the connection fails. -/
  | closing
  | closeEvent
  /-- `Relay::close`. -/
  | close

namespace RelaySocket
variable (s : RelaySocket)

/-- Outside the open state it throws or discards, and the result is not looked at. -/
def sendWithStr (text : String) : RelaySocket :=
  if s.readyState = .opened then { s with sent := s.sent ++ [text] } else s

def sendWhenOpen (text : String) : RelaySocket :=
  if s.readyState = .opened then s.sendWithStr text
  -- `set_onopen` puts the handler in the place of the one before
  else { s with onopen := some text }

def openEvent : RelaySocket :=
  let ws := { s with readyState := .opened }
  match ws.onopen with
  | some text => ws.sendWithStr text
  | none => ws

def close : RelaySocket :=
  { s with
    onopen := none
    readyState := if s.readyState = .closed then .closed else .closing }

def step : SocketLabel → Option RelaySocket
  | .sendWhenOpen text => some (s.sendWhenOpen text)
  | .openEvent => if s.readyState = .connecting then some s.openEvent else none
  | .closing =>
    if s.readyState = .connecting ∨ s.readyState = .opened then
      some { s with readyState := .closing }
    else none
  | .closeEvent =>
    if s.readyState = .closed then none else some { s with readyState := .closed }
  | .close => some s.close

end RelaySocket

def relaySocket : Machine RelaySocket SocketLabel where
  init s := s = {}
  step := RelaySocket.step

/-- The texts passed before the socket opened, while it was open, and since it began to close. -/
structure Passed where
  opened : Bool := false
  before : List String := []
  during : List String := []
  after : List String := []

def Passed.note (s : RelaySocket) (a : SocketLabel) (_ : RelaySocket) (p : Passed) : Passed :=
  match a, s.readyState with
  | .sendWhenOpen text, .connecting => { p with before := p.before ++ [text] }
  | .sendWhenOpen text, .opened => { p with during := p.during ++ [text] }
  | .sendWhenOpen text, .closing | .sendWhenOpen text, .closed =>
    { p with after := p.after ++ [text] }
  | .openEvent, _ => { p with opened := true }
  | .closing, _ | .closeEvent, _ | .close, _ => p

/-- The socket beside what it was passed. -/
def passing : Machine (RelaySocket × Passed) SocketLabel :=
  relaySocket.recording (fun _ => {}) Passed.note

namespace RelaySocket

/-- Of the texts passed before the socket opens, the handler keeps the last. -/
structure Books (s : RelaySocket) (p : Passed) : Prop where
  waiting : s.readyState = .connecting → p.opened = false ∧ s.onopen = p.before.getLast?
  early : s.readyState = .connecting ∨ s.readyState = .opened → p.after = []
  live : s.readyState = .opened → p.opened = true
  silent : p.opened = false → s.sent = [] ∧ p.during = []
  kept : p.opened = true → s.sent = p.before.getLast?.toList ++ p.during

variable {s t : RelaySocket} {p : Passed}

theorem Books.sendWhenOpen (h : s.Books p) (text : String) :
    (s.sendWhenOpen text).Books (Passed.note s (.sendWhenOpen text) t p) := by
  rcases s with ⟨state, handler, sent⟩
  cases state with
  | connecting =>
      obtain ⟨unopened, -⟩ := h.waiting rfl
      refine ⟨fun _ => ⟨unopened, List.getLast?_concat.symm⟩, h.early, h.live, h.silent, ?_⟩
      intro opened
      exact absurd (unopened.symm.trans opened) Bool.false_ne_true
  | opened =>
      have live := h.live rfl
      refine ⟨?_, h.early, h.live, ?_, ?_⟩
      · rintro ⟨⟩
      · intro unopened
        exact absurd (unopened.symm.trans live) Bool.false_ne_true
      · intro _
        have kept := congrArg (· ++ [text]) (h.kept live)
        simpa [RelaySocket.sendWhenOpen, sendWithStr, Passed.note] using kept
  | closing | closed =>
      refine ⟨?_, ?_, h.live, h.silent, h.kept⟩
      · rintro ⟨⟩
      · rintro (⟨⟨⟩⟩ | ⟨⟨⟩⟩)

theorem Books.openEvent (h : s.Books p) (now : s.readyState = .connecting) :
    s.openEvent.Books { p with opened := true } := by
  obtain ⟨unopened, handler⟩ := h.waiting now
  obtain ⟨nothing, none_⟩ := h.silent unopened
  have early := h.early (.inl now)
  unfold RelaySocket.openEvent
  simp only [handler]
  cases last : p.before.getLast? with
  | none =>
      refine ⟨?_, fun _ => early, fun _ => rfl, ?_, ?_⟩
      · rintro ⟨⟩
      · rintro ⟨⟩
      · intro _
        simp [nothing, none_, last]
  | some text =>
      refine ⟨?_, fun _ => early, fun _ => rfl, ?_, ?_⟩
      · simp [sendWithStr]
      · rintro ⟨⟩
      · intro _
        simp [sendWithStr, nothing, none_, last]

/-- A socket that only goes on to close keeps its books. -/
theorem Books.goes_on (h : s.Books p) (sent : t.sent = s.sent)
    (later : t.readyState = .closing ∨ t.readyState = .closed) : t.Books p := by
  constructor
  · intro here
    simp [here] at later
  · intro here
    rcases here with here | here <;> simp [here] at later
  · intro here
    simp [here] at later
  · intro unopened
    rw [sent]
    exact h.silent unopened
  · intro opened
    rw [sent]
    exact h.kept opened

theorem Books.step {a : SocketLabel} (h : s.Books p) (step : s.step a = some t) :
    t.Books (Passed.note s a t p) := by
  cases a with
  | sendWhenOpen text =>
      obtain rfl := Option.some.inj step
      exact h.sendWhenOpen text
  | openEvent =>
      obtain ⟨now, rfl⟩ := Option.ite_none_right_eq_some.mp step |>.imp_right Option.some.inj
      exact h.openEvent now
  | closing =>
      obtain ⟨-, rfl⟩ := Option.ite_none_right_eq_some.mp step |>.imp_right Option.some.inj
      exact h.goes_on rfl (.inl rfl)
  | closeEvent =>
      obtain ⟨-, rfl⟩ := Option.ite_none_left_eq_some.mp step |>.imp_right Option.some.inj
      exact h.goes_on rfl (.inr rfl)
  | close =>
      obtain rfl := Option.some.inj step
      refine h.goes_on rfl ?_
      unfold RelaySocket.close
      split
      · exact .inr rfl
      · exact .inl rfl

theorem books_of_reachable {t : RelaySocket × Passed} (run : passing.Reachable t) :
    t.1.Books t.2 := by
  refine run.invariant (I := fun t => t.1.Books t.2) ?_ ?_
  · rintro ⟨s, p⟩ ⟨rfl, noted⟩
    obtain rfl : p = {} := noted
    exact ⟨fun _ => ⟨rfl, rfl⟩, fun _ => rfl, by rintro ⟨⟩, fun _ => ⟨rfl, rfl⟩, by rintro ⟨⟩⟩
  · intro t a t' h step
    obtain ⟨step, noted⟩ := Machine.recording_step_iff.mp step
    rw [noted]
    exact h.step step

end RelaySocket

/-- The last element stands for the whole list only if there is no other. -/
theorem getLast?_toList_append_eq_iff {α : Type*} (l d r : List α) :
    l.getLast?.toList ++ d = l ++ d ++ r ↔ l.length ≤ 1 ∧ r = [] := by
  rcases l.eq_nil_or_concat with rfl | ⟨l, x, rfl⟩
  · simp
  · rw [List.concat_eq_append, List.getLast?_concat, Option.toList_some, List.length_append,
      List.length_singleton]
    constructor
    · intro same
      have lengths := congrArg List.length same
      simp only [List.length_append, List.length_singleton] at lengths
      exact ⟨by omega, List.length_eq_zero_iff.mp (by omega)⟩
    · rintro ⟨short, rfl⟩
      have nothing : l = [] := List.length_eq_zero_iff.mp (by omega)
      rw [nothing, List.nil_append, List.append_nil]

/-- Nothing is sent before the socket opens. From then on what was sent is what was passed, in
order, exactly if at most one text was passed before. -/
theorem sent_eq_passed_iff (t : RelaySocket × Passed) (run : passing.Reachable t) :
    (t.2.opened = false → t.1.sent = []) ∧
      (t.2.opened = true →
        (t.1.sent = t.2.before ++ t.2.during ↔ t.2.before.length ≤ 1) ∧
        (t.1.sent = t.2.before ++ t.2.during ++ t.2.after ↔
          t.2.before.length ≤ 1 ∧ t.2.after = [])) := by
  have books := RelaySocket.books_of_reachable run
  refine ⟨fun unopened => (books.silent unopened).1, fun opened => ?_⟩
  have all := getLast?_toList_append_eq_iff t.2.before t.2.during
  rw [books.kept opened]
  refine ⟨?_, all _⟩
  simpa using all []

/-- The hello waits for the socket, the answer does not. -/
theorem sent_eq_passed_hello : ∃ t, passing.Reachable t ∧ t.2.before = ["hello"] ∧
    t.1.sent = ["hello", "answer"] := by
  obtain ⟨t, run, opened, before, during⟩ := Machine.exists_reachableBy passing Machine.Always
    (s := ({}, {})) ⟨rfl, rfl⟩ [.sendWhenOpen "hello", .openEvent, .sendWhenOpen "answer"]
    (fun t => t.2.opened = true ∧ t.2.before = ["hello"] ∧ t.2.during = ["answer"]) (by decide)
  have sent := ((sent_eq_passed_iff t run).2 opened).1.mpr (by simp [before])
  exact ⟨t, run, before, by rw [sent, before, during]; rfl⟩

/-- A second text that is passed before the socket opens takes the place of the first. -/
theorem first_text_lost : ∃ t, passing.Reachable t ∧ t.2.opened = true ∧
    t.2.before = ["hello", "answer"] ∧ t.1.sent = ["answer"] :=
  Machine.exists_reachableBy passing Machine.Always (s := ({}, {})) ⟨rfl, rfl⟩
    [.sendWhenOpen "hello", .sendWhenOpen "answer", .openEvent] _ (by decide)

end ReachMyDevice
