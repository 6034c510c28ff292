import ReachMyDevice.AgentHandover

/-!
# What the broker shares about its agents

The cells that the loop, the connections and the plane share, against the events
that the loop has processed. A peer need not be an agent of this version: it may send
any messages in any order.
-/
namespace ReachMyDevice
open Machines

namespace AgentEvent

/-- The connection that reports the event. -/
def agent : AgentEvent → Nat
  | .hello id .. => id
  | .displays id _ => id
  | .closed id => id

/-! A history has the newest event first. -/

/-- The connections that have greeted. -/
def greeted : List AgentEvent → List Nat
  | [] => []
  | .hello id .. :: older => id :: greeted older
  | _ :: older => greeted older

/-- The connection whose first greeting came last. -/
def lastGreeted : List AgentEvent → Option Nat
  | [] => none
  | .hello id .. :: older => if id ∈ greeted older then lastGreeted older else some id
  | _ :: older => lastGreeted older

/-- The agent that is to be active. -/
def provider (past : List AgentEvent) : Option Nat :=
  (lastGreeted past).filter fun id => .closed id ∉ past

/-- What an agent said last of its displays, with its first greeting or after it. -/
def announcedDisplays (id : Nat) : List AgentEvent → List DisplayDesc
  | [] => []
  | .hello other _ shown :: older =>
    if other = id ∧ id ∉ greeted older then shown else announcedDisplays id older
  | .displays other shown :: older => if other = id then shown else announcedDisplays id older
  | .closed _ :: older => announcedDisplays id older

def announcedRect (id : Nat) : List AgentEvent → Option MonitorRect
  | [] => none
  | .hello other monitorRect _ :: older =>
    if other = id ∧ id ∉ greeted older then monitorRect else announcedRect id older
  | _ :: older => announcedRect id older

section
variable {past : List AgentEvent} {id : Nat} {monitorRect : Option MonitorRect}
  {shown : List DisplayDesc}

theorem mem_greeted (greets : id ∈ greeted past) : ∃ ev ∈ past, ev.agent = id := by
  induction past with
  | nil => cases greets
  | cons ev older ih =>
      have before : id ∈ greeted older → ∃ ev' ∈ ev :: older, ev'.agent = id := by
        intro member
        obtain ⟨ev', inside, same⟩ := ih member
        exact ⟨ev', List.mem_cons_of_mem _ inside, same⟩
      cases ev with
      | hello other monitorRect shown =>
          obtain rfl | member := List.mem_cons.mp greets
          · exact ⟨_, List.mem_cons_self .., rfl⟩
          · exact before member
      | displays other shown => exact before greets
      | closed other => exact before greets

theorem greeted_cons (ev : AgentEvent) (past : List AgentEvent) (id : Nat) :
    id ∈ greeted (ev :: past) ↔ id ∈ greeted [ev] ∨ id ∈ greeted past := by
  cases ev with
  | hello other monitorRect shown => simp only [greeted, List.mem_cons, List.not_mem_nil, or_false]
  | displays other shown => simp only [greeted, List.not_mem_nil, false_or]
  | closed other => simp only [greeted, List.not_mem_nil, false_or]

/-- Who greets again announces nothing. -/
theorem announcedDisplays_again (again : id ∈ greeted past) (other : Nat) :
    announcedDisplays other (.hello id monitorRect shown :: past) =
      announcedDisplays other past := by
  refine if_neg ?_
  rintro ⟨rfl, first⟩
  exact first again

theorem announcedRect_again (again : id ∈ greeted past) (other : Nat) :
    announcedRect other (.hello id monitorRect shown :: past) = announcedRect other past := by
  refine if_neg ?_
  rintro ⟨rfl, first⟩
  exact first again

theorem provider_eq_some :
    provider past = some id ↔ lastGreeted past = some id ∧ .closed id ∉ past := by
  simp only [provider, Option.filter_eq_some_iff, decide_eq_true_eq]

/-- The first greeting of an agent makes it the provider. -/
theorem provider_hello (first : id ∉ greeted past) (stays : .closed id ∉ past) :
    provider (.hello id monitorRect shown :: past) = some id := by
  rw [provider_eq_some]
  refine ⟨if_neg first, ?_⟩
  intro closed
  obtain same | closed := List.mem_cons.mp closed
  · cases same
  · exact stays closed

theorem lastGreeted_again (again : id ∈ greeted past) :
    lastGreeted (.hello id monitorRect shown :: past) = lastGreeted past := if_pos again

/-- An event that is no first greeting and no end leaves the provider. -/
theorem provider_cons {ev : AgentEvent} (last : lastGreeted (ev :: past) = lastGreeted past)
    (stays : ∀ id, ev ≠ .closed id) : provider (ev :: past) = provider past := by
  apply Option.ext
  intro id
  rw [provider_eq_some, provider_eq_some, last, List.mem_cons, not_or]
  exact and_congr_right fun _ => and_iff_right (stays id).symm

theorem provider_closed (active : provider past = some id) :
    provider (.closed id :: past) = none := by
  obtain ⟨last, -⟩ := provider_eq_some.mp active
  rw [Option.eq_none_iff_forall_ne_some]
  intro other provides
  obtain ⟨same, stays⟩ := provider_eq_some.mp provides
  obtain rfl : id = other := Option.some.inj (last.symm.trans same)
  exact stays (List.mem_cons_self ..)

theorem provider_closed_other (other : provider past ≠ some id) :
    provider (.closed id :: past) = provider past := by
  apply Option.ext
  intro agent
  rw [provider_eq_some, provider_eq_some, List.mem_cons, not_or]
  refine and_congr_right fun last => ?_
  constructor
  · exact fun stays => stays.2
  · intro stays
    refine ⟨?_, stays⟩
    intro same
    cases same
    exact other (provider_eq_some.mpr ⟨last, stays⟩)

end
end AgentEvent

open AgentEvent

/-- A broker with the events that its loop has processed. -/
structure BrokerHistory where
  broker : Broker
  past : List AgentEvent

inductive PeerAct
  /-- The plane asks for something. -/
  | posts (cmd : PlaneCmd)
  | broker (l : BrokerLabel)
  /-- A program of a user connects that need not be our agent. -/
  | connects (uid : Nat)
  /-- The other end of a connection sends what it likes. -/
  | writes (id : Nat) (msg : AgentMsg)

namespace BrokerHistory

def start : BrokerHistory where
  broker := .new
  past := []

/-- The event that a step of the broker processes. -/
def processed (b : Broker) : BrokerLabel → List AgentEvent
  | .event => b.events.take 1
  | _ => []

/-- Nothing is known of a program that has just connected. -/
def stranger : AgentConn where
  agent := .new [] 0 0
  running := false
  isOpen := true
  toAgent := []
  toBroker := []

def step (greeters : List Nat) (s : BrokerHistory) : PeerAct → Option BrokerHistory
  | .posts cmd => some { s with broker := s.broker.post cmd }
  | .broker l => (s.broker.step greeters l).map fun r => {
      broker := r.1
      past := processed s.broker l ++ s.past }
  | .connects uid =>
    some (if permits greeters uid then
      { s with broker := { s.broker with
          conns := s.broker.conns ++ [stranger]
          pending := s.broker.conns.length :: s.broker.pending } }
      else s)
  | .writes id msg => s.broker.conns[id]?.map fun c =>
      { s with broker := { s.broker with
          conns := s.broker.conns.set id { c with toBroker := c.toBroker ++ [msg] } } }

def machine (greeters : List Nat) : Machine BrokerHistory PeerAct where
  init s := s = start
  step := step greeters

/-- The shared cells say what the provider said last, and only its frames are passed on. -/
structure Coherent (greeters : List Nat) (s : BrokerHistory) : Prop where
  activeId : s.broker.activeId = s.broker.active
  active : s.broker.active = provider s.past
  displays : s.broker.shared.displays =
    ((provider s.past).map (announcedDisplays · s.past)).getD []
  monitorRect : s.broker.shared.monitorRect = (provider s.past).bind (announcedRect · s.past)
  forwards : ∀ l b frames, s.broker.step greeters l = some (b, frames) → ∀ frame ∈ frames,
    ∃ id c rest, l = .read id ∧ provider s.past = some id ∧ s.broker.conns[id]? = some c ∧
      c.toBroker = .video frame :: rest

/-- An active agent whose end is processed has announced no rectangle. -/
def Rectless (s : BrokerHistory) : PeerAct → Prop
  | .broker .event =>
    match s.broker.events with
    | .closed id :: _ => s.broker.active = some id → s.broker.shared.monitorRect = none
    | _ => True
  | _ => True

/-- All events in their order, those that wait after those that were processed. -/
def whole (s : BrokerHistory) : List AgentEvent := s.past.reverse ++ s.broker.events

/-- Every state of a run. The rectangle stays that of the agent that greeted last. -/
structure Kept (s : BrokerHistory) : Prop where
  activeId : s.broker.activeId = s.broker.active
  active : s.broker.active = provider s.past
  displays : s.broker.shared.displays =
    ((provider s.past).map (announcedDisplays · s.past)).getD []
  monitorRect : s.broker.shared.monitorRect = (lastGreeted s.past).bind (announcedRect · s.past)
  pending : ∀ id, id ∈ s.broker.pending ↔
    id < s.broker.conns.length ∧ id ∉ greeted s.past ∧ .closed id ∉ s.past
  known : ∀ ev ∈ s.whole, ev.agent < s.broker.conns.length
  ordered : s.whole.Pairwise fun ev later => ev ≠ .closed later.agent
  listens : ∀ id c, s.broker.conns[id]? = some c → c.isOpen = true → .closed id ∉ s.whole

section
variable {greeters : List Nat} {s s' : BrokerHistory} {b : Broker} {id : Nat}

theorem kept_start : Kept start := by
  refine ⟨rfl, rfl, rfl, rfl, fun id => ?_, fun ev member => ?_, .nil, fun id c here => ?_⟩
  · constructor
    · intro member
      cases member
    · intro named
      exact absurd named.1 (Nat.not_lt_zero id)
  · cases member
  · cases here

/-- A step that leaves the cells and what is queued, and opens no connection again. -/
theorem Kept.frame (h : s.Kept) (activeId : b.activeId = s.broker.activeId)
    (active : b.active = s.broker.active) (shared : b.shared = s.broker.shared)
    (pending : b.pending = s.broker.pending) (events : b.events = s.broker.events)
    (length : b.conns.length = s.broker.conns.length)
    (listens : ∀ (id : Nat) (c : AgentConn), b.conns[id]? = some c → c.isOpen = true →
      ∃ c' : AgentConn, s.broker.conns[id]? = some c' ∧ c'.isOpen = true) :
    Kept { broker := b, past := s.past } := by
  have same : whole { broker := b, past := s.past } = s.whole := by
    simp only [whole, events]
  refine ⟨?_, ?_, ?_, ?_, fun id => ?_, ?_, ?_, fun id c here isOpen => ?_⟩
  · simp only [activeId, active]
    exact h.activeId
  · simp only [active]
    exact h.active
  · simp only [shared]
    exact h.displays
  · simp only [shared]
    exact h.monitorRect
  · simp only [pending, length]
    exact h.pending id
  · simp only [same, length]
    exact h.known
  · rw [same]
    exact h.ordered
  · obtain ⟨c', there, before⟩ := listens id c here isOpen
    rw [same]
    exact h.listens id c' there before

/-- A connection goes on by itself. -/
theorem Kept.set (h : s.Kept) {c c' : AgentConn} (here : s.broker.conns[id]? = some c)
    (isOpen : c'.isOpen = true → c.isOpen = true) :
    Kept { s with broker := { s.broker with conns := s.broker.conns.set id c' } } := by
  refine h.frame rfl rfl rfl rfl rfl (List.length_set ..) (fun other d there listens => ?_)
  obtain ⟨rfl, rfl⟩ | ⟨-, there⟩ := Slots.getElem?_set_cases there
  · exact ⟨c, here, isOpen listens⟩
  · exact ⟨d, there, listens⟩

theorem Kept.sendActive (h : s.Kept) (msgs : List BrokerMsg) :
    Kept { s with broker := s.broker.sendActive msgs } := by
  unfold Broker.sendActive
  split
  · exact h
  · unfold Broker.sendTo
    split
    · exact h
    · rename_i c here
      refine h.set here (fun isOpen => ?_)
      unfold AgentConn.send at isOpen
      split at isOpen
      · exact isOpen
      · exact isOpen

/-- Somebody connects. -/
theorem Kept.connect (h : s.Kept) (c : AgentConn) :
    Kept { s with broker := { s.broker with
      conns := s.broker.conns ++ [c], pending := s.broker.conns.length :: s.broker.pending } } := by
  have fresh : ∀ ev ∈ s.whole, ev.agent ≠ s.broker.conns.length := by
    intro ev member
    exact Nat.ne_of_lt (h.known ev member)
  have unclosed : AgentEvent.closed s.broker.conns.length ∉ s.whole := by
    intro member
    exact fresh _ member rfl
  refine ⟨h.activeId, h.active, h.displays, h.monitorRect, fun id => ?_, fun ev member => ?_,
    h.ordered, fun id d there isOpen => ?_⟩
  · simp only [List.mem_cons, h.pending id, List.length_append, List.length_singleton]
    constructor
    · intro named
      obtain rfl | ⟨inside, apart⟩ := named
      · refine ⟨Nat.lt_succ_self _, ?_, ?_⟩
        · intro again
          obtain ⟨ev, member, same⟩ := mem_greeted again
          exact fresh ev (List.mem_append_left _ (List.mem_reverse.mpr member)) same
        · intro closed
          exact unclosed (List.mem_append_left _ (List.mem_reverse.mpr closed))
      · exact ⟨Nat.lt_succ_of_lt inside, apart⟩
    · intro named
      obtain ⟨inside, apart⟩ := named
      by_cases same : id = s.broker.conns.length
      · exact .inl same
      · exact .inr ⟨by omega, apart⟩
  · simp only [List.length_append, List.length_singleton]
    exact Nat.lt_succ_of_lt (h.known ev member)
  · simp only [List.getElem?_append] at there
    split at there
    · exact h.listens id d there isOpen
    · rename_i beyond
      intro closed
      exact beyond (h.known _ closed)

/-- A connection that is there reports an event. -/
theorem Kept.report (h : s.Kept) {c c' : AgentConn} {ev : AgentEvent}
    (here : s.broker.conns[id]? = some c) (isOpen : c.isOpen = true) (own : ev.agent = id)
    (ends : c'.isOpen = true → ev ≠ .closed id) :
    Kept { s with broker := { s.broker with
      conns := s.broker.conns.set id c', events := s.broker.events ++ [ev] } } := by
  have inside := (List.getElem?_eq_some_iff.mp here).1
  have longer : whole { s with broker := { s.broker with
      conns := s.broker.conns.set id c', events := s.broker.events ++ [ev] } } =
      s.whole ++ [ev] := by
    simp only [whole, List.append_assoc]
  refine ⟨h.activeId, h.active, h.displays, h.monitorRect, fun other => ?_, fun other member => ?_,
    ?_, fun other d there listens => ?_⟩
  · simp only [List.length_set]
    exact h.pending other
  · simp only [List.length_set]
    rw [longer] at member
    obtain member | same := List.mem_append.mp member
    · exact h.known other member
    · rw [List.mem_singleton.mp same, own]
      exact inside
  · rw [longer, List.pairwise_append]
    refine ⟨h.ordered, List.pairwise_singleton .., fun before member last same => ?_⟩
    rw [List.mem_singleton.mp same, own]
    rintro rfl
    exact h.listens id c here isOpen member
  · rw [longer]
    intro closed
    have there := Slots.getElem?_set_cases there
    obtain closed | same := List.mem_append.mp closed
    · obtain ⟨rfl, rfl⟩ | ⟨-, there⟩ := there
      · exact h.listens _ c here isOpen closed
      · exact h.listens other d there listens closed
    · have same := List.mem_singleton.mp same
      obtain rfl : id = other := by rw [← own, ← same, agent]
      obtain ⟨-, rfl⟩ | ⟨ne, -⟩ := there
      · exact ends listens same.symm
      · exact absurd rfl ne

section
variable {ev : AgentEvent} {rest : List AgentEvent}

theorem whole_processed (queue : s.broker.events = ev :: rest) (events : b.events = rest) :
    whole { broker := b, past := ev :: s.past } = s.whole := by
  simp only [whole, events, queue, List.reverse_cons, List.append_assoc, List.singleton_append]

/-- Nothing follows the end of a connection. -/
theorem Kept.unclosed (h : s.Kept) (queue : s.broker.events = ev :: rest) :
    .closed ev.agent ∉ s.past := by
  intro closed
  have ordered := h.ordered
  rw [whole, queue, List.pairwise_append] at ordered
  exact ordered.2.2 _ (List.mem_reverse.mpr closed) ev (List.mem_cons_self ..) rfl

/-- What an event leaves alone, whatever else the loop does with it. -/
theorem Kept.process (h : s.Kept) (queue : s.broker.events = ev :: rest) (events : b.events = rest)
    (conns : b.conns = s.broker.conns) (activeId : b.activeId = b.active)
    (active : b.active = provider (ev :: s.past))
    (displays : b.shared.displays =
      ((provider (ev :: s.past)).map (announcedDisplays · (ev :: s.past))).getD [])
    (monitorRect : b.shared.monitorRect =
      (lastGreeted (ev :: s.past)).bind (announcedRect · (ev :: s.past)))
    (pending : ∀ id, id ∈ b.pending ↔ id ∈ s.broker.pending ∧ id ∉ greeted [ev] ∧ ev ≠ .closed id) :
    Kept { broker := b, past := ev :: s.past } := by
  refine ⟨activeId, active, displays, monitorRect, fun id => ?_, ?_, ?_,
    fun id c here isOpen => ?_⟩
  · simp only
    rw [pending, h.pending id, conns, greeted_cons ev s.past id, List.mem_cons, not_or, not_or]
    constructor
    · intro named
      obtain ⟨⟨inside, before, stays⟩, new, ends⟩ := named
      exact ⟨inside, ⟨new, before⟩, Ne.symm ends, stays⟩
    · intro named
      obtain ⟨inside, ⟨new, before⟩, ends, stays⟩ := named
      exact ⟨⟨inside, before, stays⟩, new, Ne.symm ends⟩
  · rw [whole_processed queue events]
    simp only [conns]
    exact h.known
  · rw [whole_processed queue events]
    exact h.ordered
  · rw [whole_processed queue events]
    simp only [conns] at here
    exact h.listens id c here isOpen

theorem Kept.hello (h : s.Kept) {monitorRect : Option MonitorRect} {displays : List DisplayDesc}
    (queue : s.broker.events = .hello id monitorRect displays :: rest) :
    Kept {
      broker := Broker.onHello { s.broker with events := rest } id monitorRect displays
      past := .hello id monitorRect displays :: s.past } := by
  have stays : .closed id ∉ s.past := h.unclosed queue
  by_cases waits : id ∈ s.broker.pending
  · obtain ⟨-, first, -⟩ := (h.pending id).mp waits
    have provides : provider (.hello id monitorRect displays :: s.past) = some id :=
      provider_hello first stays
    have greets : Kept {
        broker := { s.broker with
          events := rest
          pending := s.broker.pending.filter (· ≠ id), activeId := some id, active := some id
          shared := { s.broker.shared with displays, monitorRect }.bump }
        past := .hello id monitorRect displays :: s.past } := by
      refine h.process queue rfl rfl rfl provides.symm ?_ ?_ fun other => ?_
      · rw [provides]
        exact (if_pos ⟨rfl, first⟩).symm
      · rw [show lastGreeted (.hello id monitorRect displays :: s.past) = some id from if_neg first]
        exact (if_pos ⟨rfl, first⟩).symm
      · simp only [List.mem_filter, decide_eq_true_eq, greeted, List.mem_singleton]
        exact and_congr_right fun _ => (and_iff_left (by simp)).symm
    unfold Broker.onHello
    rw [if_pos waits]
    simp only
    split
    · exact greets.sendActive _
    · exact greets
  · have again : id ∈ greeted s.past := by
      by_contra first
      have inside : id < s.broker.conns.length :=
        h.known (.hello id monitorRect displays)
          (List.mem_append_right _ (queue ▸ List.mem_cons_self ..))
      exact waits ((h.pending id).mpr ⟨inside, first, stays⟩)
    have last : lastGreeted (.hello id monitorRect displays :: s.past) = lastGreeted s.past :=
      lastGreeted_again again
    have provides : provider (.hello id monitorRect displays :: s.past) = provider s.past :=
      provider_cons last (by simp)
    unfold Broker.onHello
    rw [if_neg waits]
    refine h.process queue rfl rfl h.activeId (provides ▸ h.active) ?_ ?_ fun other => ?_
    · simp only [provides, announcedDisplays_again again]
      exact h.displays
    · simp only [last, announcedRect_again again]
      exact h.monitorRect
    · simp only [greeted, List.mem_singleton]
      refine (and_iff_left_of_imp fun pending => ⟨?_, by simp⟩).symm
      rintro rfl
      exact waits pending

theorem Kept.displayList (h : s.Kept) {displays : List DisplayDesc}
    (queue : s.broker.events = .displays id displays :: rest) :
    Kept {
      broker := Broker.onDisplays { s.broker with events := rest } id displays
      past := .displays id displays :: s.past } := by
  have provides : provider (.displays id displays :: s.past) = provider s.past :=
    provider_cons rfl (by simp)
  have pending : ∀ other, other ∈ s.broker.pending ↔ other ∈ s.broker.pending ∧
      other ∉ greeted [.displays id displays] ∧ AgentEvent.displays id displays ≠ .closed other := by
    intro other
    refine (and_iff_left_of_imp fun _ => ⟨List.not_mem_nil, ?_⟩).symm
    intro same
    cases same
  unfold Broker.onDisplays
  split
  · rename_i active
    rw [h.activeId, h.active] at active
    refine h.process queue rfl rfl h.activeId (provides ▸ h.active) ?_ h.monitorRect pending
    rw [provides, active]
    exact (if_pos rfl).symm
  · rename_i other
    rw [h.activeId, h.active] at other
    refine h.process queue rfl rfl h.activeId (provides ▸ h.active) ?_ h.monitorRect pending
    have displays := h.displays
    rw [provides]
    cases same : provider s.past with
    | none =>
        rw [same] at displays
        exact displays
    | some agent =>
        rw [same] at displays other
        simp only [Option.map_some, Option.getD_some] at displays ⊢
        rw [displays, announcedDisplays, if_neg]
        rintro rfl
        exact other rfl

theorem Kept.close (h : s.Kept) (queue : s.broker.events = .closed id :: rest) :
    Kept {
      broker := Broker.onClosed { s.broker with events := rest } id
      past := .closed id :: s.past } := by
  have pending : ∀ other, other ∈ s.broker.pending.filter (· ≠ id) ↔ other ∈ s.broker.pending ∧
      other ∉ greeted [.closed id] ∧ AgentEvent.closed id ≠ .closed other := by
    intro other
    simp only [List.mem_filter, decide_eq_true_eq, greeted, List.not_mem_nil, not_false_eq_true,
      true_and, ne_eq, AgentEvent.closed.injEq]
    exact and_congr_right fun _ => ne_comm
  unfold Broker.onClosed
  simp only
  split
  · rename_i active
    rw [h.active] at active
    have gone := provider_closed active
    refine h.process queue rfl rfl rfl gone.symm ?_ h.monitorRect pending
    rw [gone]
    rfl
  · rename_i other
    rw [h.active] at other
    have provides := provider_closed_other other
    refine h.process queue rfl rfl h.activeId (provides ▸ h.active) ?_ h.monitorRect pending
    rw [provides]
    exact h.displays

theorem Kept.event (h : s.Kept) (queue : s.broker.events = ev :: rest) :
    Kept {
      broker := Broker.onEvent { s.broker with events := rest } ev
      past := ev :: s.past } := by
  cases ev with
  | hello id monitorRect displays => exact h.hello queue
  | displays id displays => exact h.displayList queue
  | closed id => exact h.close queue

end

theorem Kept.step (h : s.Kept) {l : PeerAct} (stepped : s.step greeters l = some s') : s'.Kept := by
  cases l with
  | posts cmd =>
      cases stepped
      exact h.frame rfl rfl rfl rfl rfl rfl (fun id c here isOpen => ⟨c, here, isOpen⟩)
  | connects uid =>
      cases stepped
      split
      · exact h.connect stranger
      · exact h
  | writes id msg =>
      obtain ⟨c, here, rfl⟩ := Option.map_eq_some_iff.mp stepped
      exact h.set here (fun isOpen => isOpen)
  | broker l =>
      obtain ⟨⟨b, frames⟩, taken, rfl⟩ := Option.map_eq_some_iff.mp stepped
      have found := Broker.step_cases taken
      cases found with
      | accepted => exact h.connect _
      | refused | skipped => exact h
      | event queue =>
          simp only [processed, queue, List.take_succ_cons, List.take_zero, List.singleton_append]
          exact h.event queue
      | @command cmd rest =>
          have took : Kept { s with broker := { s.broker with
              cmds := rest
              capturing := (Controls.request
                { capturing := s.broker.capturing, showCursor := true } cmd).capturing } } :=
            h.frame rfl rfl rfl rfl rfl rfl (fun id c here isOpen => ⟨c, here, isOpen⟩)
          simp only [Broker.onCommand_eq _ cmd true]
          exact took.sendActive _
      | ticked => exact h.sendActive _
      | hello here isOpen | displays here isOpen | failed here isOpen =>
          exact h.report here isOpen rfl (by simp)
      | video here => exact h.set here (fun isOpen => isOpen)
      | turned here turned =>
          obtain ⟨isOpen, -⟩ := AgentConn.agentStep_link turned
          exact h.set here (fun listens => isOpen.symm.trans listens)

theorem kept (run : (machine greeters).Reachable s) : s.Kept := by
  refine run.invariant (fun s first => ?_) (fun s l s' h stepped => h.step stepped)
  cases first
  exact kept_start

/-- A connection passes on a frame only while its agent is the active one. -/
theorem Kept.forwards (h : s.Kept) {l : BrokerLabel} {frames : List VideoFrame}
    (taken : s.broker.step greeters l = some (b, frames)) {frame : VideoFrame}
    (passed : frame ∈ frames) :
    ∃ id c rest, l = .read id ∧ provider s.past = some id ∧ s.broker.conns[id]? = some c ∧
      c.toBroker = .video frame :: rest := by
  have found := Broker.step_cases taken
  cases found with
  | @video id c sent rest here isOpen queue =>
      split at passed
      · rename_i active
        rw [h.activeId, h.active] at active
        obtain rfl := List.mem_singleton.mp passed
        exact ⟨id, c, rest, rfl, active, here, queue⟩
      · cases passed
  | _ => cases passed

/-- Only an event changes who is active, or what is shared. -/
theorem step_cells {l : PeerAct} (other : l ≠ .broker .event)
    (stepped : s.step greeters l = some s') :
    s'.broker.active = s.broker.active ∧ s'.broker.shared = s.broker.shared := by
  have sent : ∀ (b : Broker) msgs, (b.sendActive msgs).active = b.active ∧
      (b.sendActive msgs).shared = b.shared := by
    intro b msgs
    rw [Broker.sendActive_same]
    exact ⟨rfl, rfl⟩
  cases l with
  | posts cmd =>
      cases stepped
      exact ⟨rfl, rfl⟩
  | connects uid =>
      cases stepped
      split <;> exact ⟨rfl, rfl⟩
  | writes id msg =>
      obtain ⟨c, -, rfl⟩ := Option.map_eq_some_iff.mp stepped
      exact ⟨rfl, rfl⟩
  | broker l =>
      obtain ⟨⟨b, frames⟩, taken, rfl⟩ := Option.map_eq_some_iff.mp stepped
      have found := Broker.step_cases taken
      cases found with
      | event => exact absurd rfl other
      | @command cmd rest =>
          simp only [Broker.onCommand_eq _ cmd true]
          exact sent _ _
      | ticked => exact sent _ _
      | _ => exact ⟨rfl, rfl⟩

/-- In any state of any run all is coherent but for a rectangle that outlives its agent. -/
theorem Kept.coherent_iff (h : s.Kept) :
    Coherent greeters s ↔ (s.broker.active = none → s.broker.shared.monitorRect = none) := by
  constructor
  · intro coherent gone
    rw [coherent.monitorRect, ← coherent.active, gone]
    rfl
  · intro cleared
    refine ⟨h.activeId, h.active, h.displays, ?_,
      fun l b frames taken frame passed => h.forwards taken passed⟩
    cases provides : provider s.past with
    | none => exact cleared (h.active.trans provides)
    | some id =>
        rw [h.monitorRect, (provider_eq_some.mp provides).1]

/-- The end of an active agent is what leaves nobody active. -/
theorem gone_event {ev : AgentEvent} {rest : List AgentEvent}
    (gone : (Broker.onEvent { s.broker with events := rest } ev).active = none) :
    (∃ id, ev = .closed id ∧ s.broker.active = some id ∧
      (Broker.onEvent { s.broker with events := rest } ev).shared.monitorRect =
        s.broker.shared.monitorRect) ∨
    s.broker.active = none ∧ (Broker.onEvent { s.broker with events := rest } ev).shared.monitorRect =
      s.broker.shared.monitorRect := by
  cases ev with
  | hello id monitorRect displays =>
      simp only [Broker.onEvent, Broker.onHello] at gone ⊢
      split at gone
      · split at gone
        · rw [Broker.sendActive_active] at gone
          cases gone
        · cases gone
      · rename_i waits
        rw [if_neg waits]
        exact .inr ⟨gone, rfl⟩
  | displays id displays =>
      simp only [Broker.onEvent, Broker.onDisplays] at gone ⊢
      split at gone
      · rename_i active
        rw [if_pos active]
        exact .inr ⟨gone, rfl⟩
      · rename_i other
        rw [if_neg other]
        exact .inr ⟨gone, rfl⟩
  | closed id =>
      simp only [Broker.onEvent, Broker.onClosed] at gone ⊢
      split at gone
      · rename_i active
        rw [if_pos active]
        exact .inl ⟨id, rfl, active, rfl⟩
      · rename_i other
        rw [if_neg other]
        exact .inr ⟨gone, rfl⟩

/-- A step that finds nobody's rectangle leaves nobody's just when it meets the condition. -/
theorem cleared_step {l : PeerAct}
    (cleared : s.broker.active = none → s.broker.shared.monitorRect = none)
    (stepped : s.step greeters l = some s') :
    (s'.broker.active = none → s'.broker.shared.monitorRect = none) ↔ s.Rectless l := by
  by_cases event : l = .broker .event
  · subst event
    obtain ⟨⟨b, frames⟩, taken, rfl⟩ := Option.map_eq_some_iff.mp stepped
    have found := Broker.step_cases taken
    cases found with
    | @event ev rest queue =>
        simp only [Rectless, queue]
        constructor
        · intro after
          cases ev with
          | closed id =>
              intro active
              simp only [Broker.onEvent, Broker.onClosed, if_pos active] at after
              exact after trivial
          | hello id monitorRect displays => trivial
          | displays id displays => trivial
        · intro met gone
          obtain ⟨id, rfl, active, same⟩ | ⟨before, same⟩ := gone_event gone
          · exact same.trans (met active)
          · exact same.trans (cleared before)
  · obtain ⟨active, shared⟩ := step_cells event stepped
    rw [active, shared]
    constructor
    · intro _
      cases l with
      | broker l =>
          cases l with
          | event => exact absurd rfl event
          | _ => trivial
      | _ => trivial
    · exact fun _ => cleared

theorem cleared (run : (machine greeters).ReachableBy Rectless s) :
    s.Kept ∧ (s.broker.active = none → s.broker.shared.monitorRect = none) := by
  refine run.invariant
    (I := fun s => s.Kept ∧ (s.broker.active = none → s.broker.shared.monitorRect = none))
    (fun s first => ?_) (fun s l s' h met stepped => ?_)
  · cases first
    exact ⟨kept_start, fun _ => rfl⟩
  · exact ⟨h.1.step stepped, (cleared_step h.2 stepped).mpr met⟩

end

/-- In a run in which no active agent ends that had announced a rectangle, the shared cells say what
the provider said. A step after which they do not ends such an agent. -/
theorem broker_coherent (greeters : List Nat) {s : BrokerHistory}
    (run : (machine greeters).ReachableBy Rectless s) :
    Coherent greeters s ∧ ∀ l s', s.step greeters l = some s' →
      (Coherent greeters s' ↔ s.Rectless l) := by
  obtain ⟨h, clean⟩ := cleared run
  refine ⟨h.coherent_iff.mpr clean, fun l s' stepped => ?_⟩
  rw [(h.step stepped).coherent_iff]
  exact cleared_step clean stepped

instance (s : BrokerHistory) : ∀ l, Decidable (s.Rectless l)
  | .broker .event =>
    match h : s.broker.events with
    | .closed id :: _ =>
      if same : s.broker.active = some id → s.broker.shared.monitorRect = none
      then .isTrue (by simpa only [Rectless, h] using same)
      else .isFalse (by simpa only [Rectless, h] using same)
    | .hello .. :: _ | .displays .. :: _ | [] => .isTrue (by simp only [Rectless, h])
  | .posts _ | .connects _ | .writes .. | .broker (.accept ..) | .broker .command
  | .broker (.bitrateTick _) | .broker (.read _) | .broker (.readError _) | .broker (.agent ..) =>
    .isTrue trivial

/-- The monitor of an agent in a session of its own. -/
def someRect : MonitorRect where
  ox := 0
  oy := 0
  mw := .fin 1920
  mh := .fin 1080
  dw := .fin 1920
  dh := .fin 1080

/-- A greeter hands over to a session with a rectangle, and its end comes after the greeting. -/
theorem broker_coherent_handover : ∃ s, (machine []).ReachableBy Rectless s ∧
    s.broker.active = some 1 ∧ s.broker.shared.monitorRect = some someRect ∧ Coherent [] s := by
  obtain ⟨s, run, active, monitorRect⟩ := (machine []).exists_reachableBy Rectless rfl
    [.broker (.accept 0 [] 0 8000000 none), .broker (.read 0), .broker .event,
      .broker (.accept 1000 [] 0 8000000 (some someRect)), .broker (.read 1), .broker .event,
      .broker (.readError 0), .broker .event]
    (fun s => s.broker.active = some 1 ∧ s.broker.shared.monitorRect = some someRect) (by decide)
  exact ⟨s, run, active, monitorRect, (broker_coherent [] run).1⟩

/-- The rectangle of an agent that has ended stays. -/
theorem stale_rectangle : ∃ s, (machine []).Reachable s ∧ s.broker.active = none ∧
    s.broker.shared.monitorRect = some someRect ∧ ¬ Coherent [] s := by
  obtain ⟨s, run, active, monitorRect⟩ := (machine []).exists_reachableBy Machine.Always rfl
    [.broker (.accept 1000 [] 0 8000000 (some someRect)), .broker (.read 0), .broker .event,
      .broker (.readError 0), .broker .event]
    (fun s => s.broker.active = none ∧ s.broker.shared.monitorRect = some someRect) (by decide)
  refine ⟨s, run, active, monitorRect, fun coherent => ?_⟩
  have same := coherent.monitorRect
  rw [← coherent.active, active, monitorRect] at same
  cases same

end BrokerHistory
end ReachMyDevice
