import ReachMyDevice.Driver
import ReachMyDevice.Identity
import ReachMyDevice.Lib.Machine
import ReachMyDevice.Lib.Reading
import ReachMyDevice.Lib.Slots
import Mathlib.Data.List.TakeWhile

/-!
# The relay for development

Every line of a client goes to all others, over a bus that keeps the last lines for
those who are slow. A client that falls behind misses the oldest. The ends of the
lines are `SignalClient`s, which send signaling messages as JSON.
-/
namespace ReachMyDevice
open Machines Reading

/-- A line on the bus, and the client that sent it. -/
structure BusLine where
  sender : Nat
  line : String
  deriving DecidableEq, Repr

/-- `next`: the place on the bus where the client goes on. History: where it joined, and what it
was handed. -/
structure DevClient where
  id : Nat
  next : Nat
  written : List String
  connected : Bool
  joined : Nat
  handed : List BusLine
  deriving DecidableEq, Repr

structure DevRelay where
  nextId : Nat
  bus : List BusLine
  clients : List DevClient
  deriving DecidableEq, Repr

inductive DevLabel
  | accept
  | line (i : Nat) (text : String)
  /-- A client takes the next line from the bus; whether its socket takes it. -/
  | recv (i : Nat) (written : Bool)
  | close (i : Nat)
  deriving DecidableEq, Repr

def isBlank (text : String) : Bool := trim text.toList == []

namespace DevClient
variable (c : DevClient) (bus : List BusLine)

/-- What the bus keeps for the slowest of its receivers. -/
def busCapacity : Nat := 256

def lags : Bool := decide (busCapacity < bus.length - c.next)

/-- The lines of others. -/
def foreign (lines : List BusLine) : List String :=
  (lines.filter (·.sender ≠ c.id)).map (·.line)

/-- A receiver that has fallen behind goes on with the oldest line that is kept. -/
def recv (written : Bool) : Option DevClient :=
  if c.lags bus then some { c with next := bus.length - busCapacity }
  else bus[c.next]?.map fun msg =>
    if msg.sender = c.id then { c with next := c.next + 1, handed := c.handed ++ [msg] }
    else if written then
      { c with
        next := c.next + 1
        handed := c.handed ++ [msg]
        written := c.written ++ [msg.line] }
    else { c with connected := false }

end DevClient

namespace DevRelay
variable (s : DevRelay)

def client (i : Nat) : Option DevClient := s.clients[i]?.filter (·.connected)

def step : DevLabel → Option DevRelay
  | .accept => some { s with
      nextId := s.nextId + 1
      clients := s.clients ++ [⟨s.nextId, s.bus.length, [], true, s.bus.length, []⟩] }
  | .line i text => (s.client i).map fun c =>
      if isBlank text then s else { s with bus := s.bus ++ [⟨c.id, text⟩] }
  | .recv i written => (s.client i).bind fun c =>
      (c.recv s.bus written).map fun c' => { s with clients := s.clients.set i c' }
  | .close i => (s.client i).map fun c =>
      { s with clients := s.clients.set i { c with connected := false } }

def machine : Machine DevRelay DevLabel where
  init s := s = ⟨1, [], []⟩
  step s l := s.step l

/-- No client falls behind. -/
def Keeps (s : DevRelay) : DevLabel → Prop
  | .recv i _ => ∀ c ∈ s.client i, c.lags s.bus = false
  | _ => True

instance (s : DevRelay) (l : DevLabel) : Decidable (s.Keeps l) :=
  match l with
  | .recv i _ => inferInstanceAs (Decidable (∀ c ∈ s.client i, c.lags s.bus = false))
  | .accept | .line .. | .close _ => .isTrue trivial

/-- What is known of a client: of the lines since it joined it was handed those that it did not
miss, and its socket took those of others. -/
structure ClientKept (bus : List BusLine) (c : DevClient) (missed : Nat) : Prop where
  joined : c.joined ≤ c.next
  behind : c.next ≤ bus.length
  read : Read (bus.drop c.joined) (bus.drop c.next) c.handed missed
  written : c.written = c.foreign c.handed
  recent : bus.length ≤ c.joined + DevClient.busCapacity → missed = 0

variable {s} {s' : DevRelay} {bus : List BusLine} {c c' : DevClient} {missed : Nat}

theorem ClientKept.publish (h : ClientKept bus c missed) (msg : BusLine) :
    ClientKept (bus ++ [msg]) c missed where
  joined := h.joined
  behind := by
    rw [List.length_append]
    exact h.behind.trans (Nat.le_add_right ..)
  read := by
    rw [List.drop_append_of_le_length (h.joined.trans h.behind),
      List.drop_append_of_le_length h.behind]
    exact h.read.append [msg]
  written := h.written
  recent few := by
    rw [List.length_append] at few
    exact h.recent ((Nat.le_add_right ..).trans few)

theorem ClientKept.close (h : ClientKept bus c missed) (connected : Bool) :
    ClientKept bus { c with connected } missed :=
  ⟨h.joined, h.behind, h.read, h.written, h.recent⟩

theorem ClientKept.jump (h : ClientKept bus c missed) {next skipped : Nat}
    (forward : c.next ≤ next) (behind : next ≤ bus.length)
    (read : Read (bus.drop c.joined) (bus.drop next) c.handed skipped)
    (recent : bus.length ≤ c.joined + DevClient.busCapacity → skipped = 0) :
    ClientKept bus { c with next } skipped :=
  ⟨h.joined.trans forward, behind, read, h.written, recent⟩

theorem drop_of_getElem? {next : Nat} {msg : BusLine} (there : bus[next]? = some msg) :
    bus.drop next = [msg] ++ bus.drop (next + 1) := by
  obtain ⟨inside, same⟩ := List.getElem?_eq_some_iff.mp there
  rw [List.drop_eq_getElem_cons inside, same]
  rfl

theorem foreign_append (lines more : List BusLine) :
    c.foreign (lines ++ more) = c.foreign lines ++ c.foreign more := by
  rw [DevClient.foreign, List.filter_append, List.map_append]
  rfl

theorem foreign_concat_own {msg : BusLine} (own : msg.sender = c.id) (lines : List BusLine) :
    c.foreign (lines ++ [msg]) = c.foreign lines := by
  have none_ : c.foreign [msg] = [] := by simp [DevClient.foreign, own]
  rw [foreign_append, none_, List.append_nil]

theorem foreign_concat_other {msg : BusLine} (other : msg.sender ≠ c.id)
    (lines : List BusLine) : c.foreign (lines ++ [msg]) = c.foreign lines ++ [msg.line] := by
  have one : c.foreign [msg] = [msg.line] := by simp [DevClient.foreign, other]
  rw [foreign_append, one]

/-- A client takes a line, misses the oldest, or fails. -/
theorem ClientKept.recv (h : ClientKept bus c missed) {written : Bool}
    (moved : c.recv bus written = some c') :
    ∃ missed', ClientKept bus c' missed' ∧ (c.lags bus = false → missed' = missed) := by
  unfold DevClient.recv at moved
  split at moved
  · rename_i lags
    rw [← Option.some.inj moved]
    have far : DevClient.busCapacity < bus.length - c.next := of_decide_eq_true lags
    have jump : c.next + (bus.length - DevClient.busCapacity - c.next) =
        bus.length - DevClient.busCapacity := by omega
    have there : bus.length - DevClient.busCapacity - c.next ≤ (bus.drop c.next).length := by
      rw [List.length_drop]
      omega
    have read := h.read.dropped there
    rw [List.drop_drop, jump] at read
    have forward : c.next ≤ bus.length - DevClient.busCapacity := by omega
    have inside : bus.length - DevClient.busCapacity ≤ bus.length := Nat.sub_le _ _
    have joined := h.joined
    refine ⟨_, h.jump forward inside read ?_, ?_⟩
    · intro few
      omega
    · intro keeps
      rw [lags] at keeps
      cases keeps
  · obtain ⟨msg, there, moved⟩ := Option.map_eq_some_iff.mp moved
    obtain ⟨inside, -⟩ := List.getElem?_eq_some_iff.mp there
    have read := h.read
    rw [drop_of_getElem? there] at read
    split at moved
    · rename_i own
      rw [← moved]
      have joined := h.joined.trans (Nat.le_succ _)
      refine ⟨missed, ⟨joined, inside, read.take, ?_, h.recent⟩, fun _ => rfl⟩
      exact h.written.trans (foreign_concat_own own c.handed).symm
    · rename_i other
      split at moved
      · rw [← moved]
        have joined := h.joined.trans (Nat.le_succ _)
        refine ⟨missed, ⟨joined, inside, read.take, ?_, h.recent⟩, fun _ => rfl⟩
        have more := foreign_concat_other other c.handed
        rw [← h.written] at more
        exact more.symm
      · rw [← moved]
        exact ⟨missed, h.close false, fun _ => rfl⟩

/-- Every client is kept, under a number of its own. -/
structure Relays (s : DevRelay) : Prop where
  clients : ∀ c ∈ s.clients, ∃ missed, ClientKept s.bus c missed
  ids : s.clients.map (·.id) = List.range' 1 s.clients.length
  nextId : s.nextId = s.clients.length + 1
  senders : ∀ line ∈ s.bus, line.sender ∈ s.clients.map (·.id)

theorem of_client {i : Nat} (found : s.client i = some c) : s.clients[i]? = some c :=
  (Option.filter_eq_some_iff.mp found).1

theorem ids_set {i : Nat} (found : s.clients[i]? = some c) (same : c'.id = c.id) :
    (s.clients.set i c').map (·.id) = s.clients.map (·.id) := by
  obtain ⟨inside, here⟩ := List.getElem?_eq_some_iff.mp found
  rw [List.map_set, same, ← here]
  apply List.ext_getElem
  · rw [List.length_set]
  · intro j _ _
    rw [List.getElem_set]
    split
    · rename_i eq
      subst eq
      rw [List.getElem_map]
    · rfl

theorem recv_id {written : Bool} (moved : c.recv bus written = some c') : c'.id = c.id := by
  unfold DevClient.recv at moved
  split at moved
  · rw [← Option.some.inj moved]
  · obtain ⟨msg, -, moved⟩ := Option.map_eq_some_iff.mp moved
    rw [← moved]
    split
    · rfl
    · split <;> rfl

/-- A step that changes one client, and not who it is. -/
theorem Relays.set (h : s.Relays) {i : Nat} (found : s.clients[i]? = some c)
    (same : c'.id = c.id) (kept : ∃ missed, ClientKept s.bus c' missed) :
    ({ s with clients := s.clients.set i c' } : DevRelay).Relays where
  clients := Slots.forall_mem_set h.clients kept
  ids := by
    rw [ids_set found same, List.length_set]
    exact h.ids
  nextId := by
    rw [List.length_set]
    exact h.nextId
  senders := by
    rw [ids_set found same]
    exact h.senders

theorem Relays.step {l : DevLabel} (h : s.Relays) (step : s.step l = some s') : s'.Relays := by
  cases l with
  | accept =>
      rw [← Option.some.inj step]
      refine ⟨?_, ?_, ?_, ?_⟩
      · apply Slots.forall_mem_concat h.clients
        refine ⟨0, le_rfl, le_rfl, ?_, rfl, fun _ => rfl⟩
        rw [List.drop_length]
        exact Read.nil
      · rw [List.map_append, h.ids, List.length_append, List.length_singleton,
          ← List.range'_append_1, List.map_singleton, h.nextId, Nat.add_comm 1]
        rfl
      · rw [List.length_append, h.nextId]
        rfl
      · intro line member
        rw [List.map_append]
        exact List.mem_append_left _ (h.senders line member)
  | line i text =>
      obtain ⟨c, found, step⟩ := Option.map_eq_some_iff.mp step
      split at step
      · rw [← step]
        exact h
      · rw [← step]
        refine ⟨?_, h.ids, h.nextId, ?_⟩
        · intro d member
          obtain ⟨missed, kept⟩ := h.clients d member
          exact ⟨missed, kept.publish _⟩
        · apply Slots.forall_mem_concat h.senders
          exact List.mem_map_of_mem (List.mem_of_getElem? (of_client found))
  | recv i written =>
      obtain ⟨c, found, step⟩ := Option.bind_eq_some_iff.mp step
      obtain ⟨c', moved, step⟩ := Option.map_eq_some_iff.mp step
      obtain ⟨missed, kept⟩ := h.clients c (List.mem_of_getElem? (of_client found))
      obtain ⟨missed', kept', -⟩ := kept.recv moved
      rw [← step]
      exact h.set (of_client found) (recv_id moved) ⟨missed', kept'⟩
  | close i =>
      obtain ⟨c, found, step⟩ := Option.map_eq_some_iff.mp step
      obtain ⟨missed, kept⟩ := h.clients c (List.mem_of_getElem? (of_client found))
      rw [← step]
      exact h.set (of_client found) rfl ⟨missed, kept.close false⟩

theorem Relays.start : (⟨1, [], []⟩ : DevRelay).Relays := ⟨nofun, rfl, rfl, nofun⟩

theorem relays (run : machine.Reachable s) : s.Relays := by
  apply run.invariant
  · intro t first
    rw [first]
    exact .start
  · intro t l t' h step
    exact h.step step

theorem ClientKept.sublist (h : ClientKept bus c missed) :
    c.written.Sublist (c.foreign (bus.drop c.joined)) := by
  have handed : c.handed.Sublist (bus.drop c.joined) :=
    (List.sublist_append_left ..).trans h.read.sublist
  rw [h.written]
  exact (handed.filter _).map _

theorem ClientKept.whole (h : ClientKept bus c 0) :
    c.written ++ c.foreign (bus.drop c.next) = c.foreign (bus.drop c.joined) := by
  rw [h.written, ← foreign_append, h.read.exact]

/-- In every run a client is sent, in order, lines that others have sent since it joined, and
none of its own. It misses none as long as the bus keeps all of them. -/
theorem lines_relayed (run : machine.Reachable s) :
    (s.clients.map (·.id)).Nodup ∧ ∀ c ∈ s.clients,
      c.written.Sublist (c.foreign (s.bus.drop c.joined)) ∧
      (s.bus.length ≤ c.joined + DevClient.busCapacity →
        c.written ++ c.foreign (s.bus.drop c.next) = c.foreign (s.bus.drop c.joined)) := by
  have h := relays run
  constructor
  · rw [h.ids]
    exact List.nodup_range'
  · intro c member
    obtain ⟨missed, kept⟩ := h.clients c member
    refine ⟨kept.sublist, ?_⟩
    intro few
    have none_ := kept.recent few
    rw [none_] at kept
    exact kept.whole

section
variable {J : Type} (json : SignalMsg J → String) (parse : String → Option (SignalMsg J))

/-- The reader of a `SignalClient`. -/
def received (lines : List String) : List (SignalMsg J) :=
  lines.filterMap fun line => if isBlank line then none else parse line

/-- What `SignalClient::send` writes. -/
def Signals : DevLabel → Prop
  | .line _ text => ∃ msg, text = json msg
  | _ => True

def signalLine (sent : Nat × SignalMsg J) : BusLine := ⟨sent.1, json sent.2⟩

variable {json parse}

theorem received_json (round : ∀ msg, parse (json msg) = some msg)
    (text : ∀ msg, isBlank (json msg) = false) (msgs : List (SignalMsg J)) :
    received parse (msgs.map json) = msgs := by
  rw [received, List.filterMap_map]
  induction msgs with
  | nil => rfl
  | cons msg msgs ih =>
      have first : ((fun line => if isBlank line then none else parse line) ∘ json) msg =
          some msg := by
        rw [Function.comp_apply, text, round]
        rfl
      rw [List.filterMap_cons_some first, ih]

theorem foreign_signals (c : DevClient) (sent : List (Nat × SignalMsg J)) :
    c.foreign (sent.map (signalLine json)) =
      ((sent.filter (·.1 ≠ c.id)).map Prod.snd).map json := by
  rw [DevClient.foreign, List.filter_map, List.map_map, List.map_map]
  rfl

/-- No client has missed a line, and all lines are of messages. -/
structure Carries (json : SignalMsg J → String) (s : DevRelay) : Prop where
  clients : ∀ c ∈ s.clients, ClientKept s.bus c 0
  lines : ∃ sent : List (Nat × SignalMsg J), s.bus = sent.map (signalLine json)

theorem Carries.step {l : DevLabel} (h : s.Carries json) (keeps : s.Keeps l)
    (signals : Signals json l) (step : s.step l = some s') : s'.Carries json := by
  cases l with
  | accept =>
      rw [← Option.some.inj step]
      refine ⟨?_, h.lines⟩
      apply Slots.forall_mem_concat h.clients
      refine ⟨le_rfl, le_rfl, ?_, rfl, fun _ => rfl⟩
      rw [List.drop_length]
      exact Read.nil
  | line i text =>
      obtain ⟨c, -, step⟩ := Option.map_eq_some_iff.mp step
      split at step
      · rw [← step]
        exact h
      · rw [← step]
        constructor
        · intro d member
          exact (h.clients d member).publish _
        · obtain ⟨sent, all⟩ := h.lines
          obtain ⟨msg, same⟩ := signals
          refine ⟨sent ++ [(c.id, msg)], ?_⟩
          rw [List.map_append, ← all, same]
          rfl
  | recv i written =>
      obtain ⟨c, found, step⟩ := Option.bind_eq_some_iff.mp step
      obtain ⟨c', moved, step⟩ := Option.map_eq_some_iff.mp step
      obtain ⟨missed, kept, same⟩ :=
        (h.clients c (List.mem_of_getElem? (of_client found))).recv moved
      rw [same (keeps c found)] at kept
      rw [← step]
      exact ⟨Slots.forall_mem_set h.clients kept, h.lines⟩
  | close i =>
      obtain ⟨c, found, step⟩ := Option.map_eq_some_iff.mp step
      have kept := h.clients c (List.mem_of_getElem? (of_client found))
      rw [← step]
      exact ⟨Slots.forall_mem_set h.clients (kept.close false), h.lines⟩

/-- As long as no client falls behind, each gets the messages that the others have sent since it
joined: all of them, once, and in order. -/
theorem signals_relayed (round : ∀ msg, parse (json msg) = some msg)
    (text : ∀ msg, isBlank (json msg) = false)
    (run : machine.ReachableBy (fun t l => t.Keeps l ∧ Signals json l) s) :
    ∃ sent : List (Nat × SignalMsg J), s.bus = sent.map (signalLine json) ∧
      ∀ c ∈ s.clients,
        received parse c.written ++ received parse (c.foreign (s.bus.drop c.next)) =
          ((sent.drop c.joined).filter (·.1 ≠ c.id)).map Prod.snd := by
  have h : s.Carries json := by
    apply run.invariant
    · intro t first
      rw [first]
      exact ⟨nofun, [], rfl⟩
    · intro t l t' h met step
      exact h.step met.1 met.2 step
  obtain ⟨sent, all⟩ := h.lines
  refine ⟨sent, all, ?_⟩
  intro c member
  have whole := (h.clients c member).whole
  have since : s.bus.drop c.joined = (sent.drop c.joined).map (signalLine json) := by
    rw [all, List.map_drop]
  calc received parse c.written ++ received parse (c.foreign (s.bus.drop c.next))
      = received parse (c.written ++ c.foreign (s.bus.drop c.next)) :=
        List.filterMap_append.symm
    _ = received parse (((((sent.drop c.joined).filter (·.1 ≠ c.id)).map Prod.snd)).map json) := by
        rw [whole, since, foreign_signals]
    _ = ((sent.drop c.joined).filter (·.1 ≠ c.id)).map Prod.snd := received_json round text _

end

/-- The third client joins after the first line, and is sent the second. -/
theorem lines_relayed_late : ∃ s, machine.Reachable s ∧
    (s.clients.map (·.id)).Nodup ∧ s.clients.map (·.written) = [[], ["a", "b"], ["b"]] := by
  obtain ⟨s, run, written⟩ := Machine.exists_reachableBy machine Machine.Always
    (s := ⟨1, [], []⟩) rfl
    [.accept, .accept, .line 0 "a", .line 0 " ", .recv 0 true, .recv 1 true, .accept,
      .line 0 "b", .recv 2 true, .recv 1 true]
    (fun s => s.clients.map (·.written) = [[], ["a", "b"], ["b"]]) (by decide +kernel)
  exact ⟨s, run, (lines_relayed run).1, written⟩

/-- A text form for closed runs, in which no message has a description. It is not the one that
`serde_json` gives a candidate: it begins with a brace and is not blank, as that does. -/
def candidateText : SignalMsg Empty → String
  | .candidate line => "\x7b" ++ line

def candidateOfText (line : String) : Option (SignalMsg Empty) :=
  match line.toList with
  | '{' :: rest => some (.candidate (String.ofList rest))
  | _ => none

theorem candidateOfText_candidateText (msg : SignalMsg Empty) :
    candidateOfText (candidateText msg) = some msg := by
  cases msg with
  | offer json => exact json.elim
  | answer json => exact json.elim
  | candidate line => simp [candidateOfText, candidateText]

theorem candidateText_isBlank (msg : SignalMsg Empty) : isBlank (candidateText msg) = false := by
  cases msg with
  | offer json => exact json.elim
  | answer json => exact json.elim
  | candidate line =>
      apply beq_eq_false_iff_ne.mpr
      intro blank
      have text : ("\x7b" ++ line).toList = '{' :: line.toList := by simp
      have first : ('{' :: line.toList).dropWhile isWhitespace = '{' :: line.toList :=
        List.dropWhile_cons_of_neg (by decide +kernel)
      rw [candidateText, text, trim, first, List.reverse_eq_nil_iff,
        List.dropWhile_eq_nil_iff] at blank
      have brace := blank '{' (List.mem_reverse.mpr (List.mem_cons_self ..))
      exact absurd brace (by decide +kernel)

def sampleCandidates : List DevLabel :=
  [.accept, .accept, .line 0 (candidateText (.candidate "a")), .recv 1 true,
    .line 1 (candidateText (.candidate "b")), .recv 0 true, .recv 0 true]

theorem sampleCandidates_signals :
    ∀ l, l ∈ sampleCandidates → ∀ s : DevRelay, s.Keeps l →
      s.Keeps l ∧ Signals (J := Empty) candidateText l := by
  intro l member s keeps
  refine ⟨keeps, ?_⟩
  simp only [sampleCandidates, List.mem_cons, List.not_mem_nil, or_false] at member
  rcases member with rfl | rfl | rfl | rfl | rfl | rfl | rfl
  · trivial
  · trivial
  · exact ⟨_, rfl⟩
  · trivial
  · exact ⟨_, rfl⟩
  · trivial
  · trivial

/-- Each side has the candidate of the other. -/
theorem signals_relayed_two : ∃ s,
    machine.ReachableBy (fun t l => t.Keeps l ∧ Signals (J := Empty) candidateText l) s ∧
    s.clients.map (fun c => received candidateOfText c.written) =
      [[.candidate "b"], [.candidate "a"]] ∧
    ∃ sent : List (Nat × SignalMsg Empty), s.bus = sent.map (signalLine candidateText) ∧
      ∀ c ∈ s.clients,
        received candidateOfText c.written ++
            received candidateOfText (c.foreign (s.bus.drop c.next)) =
          ((sent.drop c.joined).filter (·.1 ≠ c.id)).map Prod.snd := by
  obtain ⟨s, run, got⟩ := Machine.exists_reachableBy_of machine Keeps
    (s := ⟨1, [], []⟩) rfl sampleCandidates sampleCandidates_signals
    (fun s => s.clients.map (fun c => received candidateOfText c.written) =
      [[.candidate "b"], [.candidate "a"]]) (by decide +kernel)
  exact ⟨s, run, got,
    signals_relayed candidateOfText_candidateText candidateText_isBlank run⟩

end DevRelay
end ReachMyDevice
